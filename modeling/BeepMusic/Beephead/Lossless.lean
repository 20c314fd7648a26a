import BeepMusic.Beephead.Polling

/-!
Polling loses nothing. A response takes what a client holds to the latest states: it is
either all of them, or the events since the client's number, and events that the client
has already seen do no harm.
-/

namespace BeepMusic.Beephead

open Lib List Option

variable {ι ν : Type}

/-! ### Keys -/

theorem groupKey_inj {g g' : String} : groupKey g = groupKey g' ↔ g = g' :=
  String.append_right_inj "group."

/-- A list is cut at the first separator in only one way. -/
theorem append_cons_inj {α : Type} {a : α} {l l' r r' : List α} (hl : a ∉ l) (hl' : a ∉ l')
    (h : l ++ a :: r = l' ++ a :: r') : l = l' ∧ r = r' := by
  induction l generalizing l' with
  | nil =>
    cases l' with
    | nil => exact ⟨rfl, (List.cons.inj h).2⟩
    | cons b l' => exact absurd ((List.cons.inj h).1 ▸ .head l') hl'
  | cons b l ih =>
    cases l' with
    | nil => exact absurd ((List.cons.inj h).1.symm ▸ .head l) hl
    | cons b' l' =>
      obtain ⟨rfl, htail⟩ := List.cons.inj h
      obtain ⟨rfl, rfl⟩ := ih (fun hmem => hl (.tail b hmem)) (fun hmem => hl' (.tail b hmem))
        htail
      exact ⟨rfl, rfl⟩

theorem stateKey_inj {g g' o o' : String} (hg : '.' ∉ g.toList) (hg' : '.' ∉ g'.toList)
    (h : stateKey g o = stateKey g' o') : g = g' ∧ o = o' := by
  have hlist := congrArg String.toList h
  simp only [stateKey, String.toList_append] at hlist
  rw [append_assoc, append_assoc] at hlist
  obtain ⟨hgroup, hobject⟩ := append_cons_inj hg hg' hlist
  exact ⟨String.ext hgroup, String.ext hobject⟩

/-! ### Responses -/

theorem lookup_groupEvents (raw : List (Event ν))
    (groupEvents : AList fun _ : String => List (GroupUpdate ν)) (g : String) :
    ((raw.foldl addGroupUpdate groupEvents).lookup (groupKey g)).getD [] =
      (groupEvents.lookup (groupKey g)).getD [] ++
        (raw.filter fun e => e.groupId = g).map Event.groupUpdate := by
  induction raw generalizing groupEvents with
  | nil => rw [foldl_nil, filter_nil, map_nil, append_nil]
  | cons e raw ih =>
    rw [foldl_cons, ih, addGroupUpdate]
    by_cases hg : e.groupId = g
    · rw [filter_cons, if_pos (decide_eq_true hg), map_cons, ← hg, AList.lookup_insert,
        getD_some, append_assoc, singleton_append]
    · rw [filter_cons, if_neg fun heq => hg (of_decide_eq_true heq),
        AList.lookup_insert_ne fun heq => hg (groupKey_inj.mp heq.symm)]

/-- The groups of a response do not get into each other's way: it does what its events do
one after the other. -/
theorem applyTo_formatResponse (curSeq : ℤ) (raw : List (Event ν)) (isRefresh : Bool)
    (view : View ν) :
    (formatResponse curSeq raw isRefresh).applyTo view =
      raw.foldl (fun view e => overlay view e.effect)
        (if isRefresh then fun _ => none else view) := by
  have hgroups : ∀ (base : View ν) (k : String × String),
      ((raw.filter fun e => e.groupId = k.1).map Event.groupUpdate).foldl
          (fun held u => (u.effect k.2).getD held) (base k) =
        raw.foldl (fun view e => overlay view e.effect) base k := by
    intro base k
    induction raw generalizing base with
    | nil => rfl
    | cons e raw ih =>
      rw [foldl_cons, ← ih]
      by_cases hg : e.groupId = k.1
      · rw [filter_cons, if_pos (decide_eq_true hg), map_cons, foldl_cons, overlay,
          Event.effect, if_pos hg]
      · rw [filter_cons, if_neg fun heq => hg (of_decide_eq_true heq), overlay, Event.effect,
          if_neg hg, getD_none]
  funext k
  rw [← hgroups, Response.applyTo]
  have hdata : (formatResponse curSeq raw isRefresh).data = raw.foldl addGroupUpdate ∅ := rfl
  rw [hdata, lookup_groupEvents, AList.lookup_empty, getD_none, nil_append]
  cases isRefresh <;> rfl

/-! ### The latest states -/

/-- The table has an entry for each object that is there, under its key. -/
structure Tabled (states : AList fun _ : String => Event ν) (view : View ν) : Prop where
  entry : ∀ k e, states.lookup k = some e → '.' ∉ e.groupId.toList ∧
    k = stateKey e.groupId e.object ∧ e.eventType = none ∧
      view (e.groupId, e.object) = some e.state
  covers : ∀ k st, view k = some st →
    ∃ e, states.lookup (stateKey k.1 k.2) = some e ∧ (e.groupId, e.object) = k

variable {e : Event ν} {states : AList fun _ : String => Event ν} {view : View ν}

theorem effect_of_set (hgroup : e.eventType ≠ some .groupRemoved)
    (happ : e.eventType ≠ some .appRemoved) (k : String × String) :
    e.effect k = if (e.groupId, e.object) = k then some (some e.state) else none := by
  obtain ⟨g, o⟩ := k
  simp [Event.effect, GroupUpdate.effect, Event.groupUpdate, hgroup, happ, ite_and]

theorem effect_of_untyped (h : e.eventType = none) (k : String × String) :
    e.effect k = if (e.groupId, e.object) = k then some (some e.state) else none :=
  effect_of_set (by simp [h]) (by simp [h]) k

theorem effect_of_appRemoved (h : e.eventType = some .appRemoved) (k : String × String) :
    e.effect k = if (e.groupId, e.object) = k then some none else none := by
  obtain ⟨g, o⟩ := k
  simp [Event.effect, GroupUpdate.effect, Event.groupUpdate, h, ite_and]

theorem effect_of_groupRemoved (h : e.eventType = some .groupRemoved) (k : String × String) :
    e.effect k = if e.groupId = k.1 then some none else none := by
  simp [Event.effect, GroupUpdate.effect, Event.groupUpdate, h]

theorem Tabled.refresh (h : Tabled states view) (pairs : Enumeration (Event ν)) :
    (pairs.order (states.entries.map Sigma.snd)).foldl (fun view e => overlay view e.effect)
      (fun _ => none) = view := by
  have hmem : ∀ e, e ∈ pairs.order (states.entries.map Sigma.snd) ↔
      ∃ k, states.lookup k = some e := by
    intro e
    simp only [Enumeration.mem_order, List.mem_map]
    constructor
    · rintro ⟨⟨k, e'⟩, hin, rfl⟩
      exact ⟨k, AList.mem_lookup_iff.mpr hin⟩
    · rintro ⟨k, hlookup⟩
      exact ⟨⟨k, e⟩, AList.mem_lookup_iff.mp hlookup, rfl⟩
  funext k
  rw [foldl_overlay, overlay]
  cases hview : view k with
  | none =>
    rw [lastWrite_eq_none, getD_none]
    intro e he
    obtain ⟨key, hlookup⟩ := (hmem e).mp he
    obtain ⟨-, -, htype, hstate⟩ := h.entry key e hlookup
    rw [effect_of_untyped htype, if_neg]
    rintro rfl
    rw [hstate] at hview
    cases hview
  | some st =>
    obtain ⟨e, hlookup, hk⟩ := h.covers k st hview
    rw [lastWrite_eq_some (v := some st), getD_some]
    · intro e' he'
      obtain ⟨key, hlookup'⟩ := (hmem e').mp he'
      obtain ⟨-, -, htype, hstate⟩ := h.entry key e' hlookup'
      rw [effect_of_untyped htype]
      split
      · rename_i heq
        rw [heq, hview] at hstate
        exact .inr (congrArg some hstate.symm)
      · exact .inl rfl
    · obtain ⟨-, -, htype, hstate⟩ := h.entry _ e hlookup
      refine ⟨e, (hmem e).mpr ⟨_, hlookup⟩, ?_⟩
      rw [effect_of_untyped htype, if_pos hk, ← hstate, hk, hview]

theorem Tabled.drop {states' : AList fun _ : String => Event ν} {view' : View ν}
    (h : Tabled states view)
    (hkept : ∀ k e, states'.lookup k = some e → states.lookup k = some e ∧
      view' (e.groupId, e.object) = view (e.groupId, e.object))
    (hview : ∀ k st, view' k = some st → view k = some st ∧
      states'.lookup (stateKey k.1 k.2) = states.lookup (stateKey k.1 k.2)) :
    Tabled states' view' := by
  constructor
  · intro k e hlookup
    obtain ⟨hold, hsame⟩ := hkept k e hlookup
    rw [hsame]
    exact h.entry k e hold
  · intro k st hst
    obtain ⟨hold, hsame⟩ := hview k st hst
    rw [hsame]
    exact h.covers k st hold

theorem Tabled.covers_dotless (h : Tabled states view) {k : String × String} {st : Option ν}
    (hst : view k = some st) : '.' ∉ k.1.toList := by
  obtain ⟨e, hlookup, rfl⟩ := h.covers k st hst
  exact (h.entry _ e hlookup).1

theorem Tabled.cullAgent (h : Tabled states view) (hdot : '.' ∉ e.groupId.toList)
    (htype : e.eventType = some .appRemoved) :
    Tabled (states.erase (stateKey e.groupId e.object)) (overlay view e.effect) := by
  refine h.drop ?_ ?_
  · intro k e' hlookup
    have hne : k ≠ stateKey e.groupId e.object := by
      rintro rfl
      rw [AList.lookup_erase] at hlookup
      cases hlookup
    rw [AList.lookup_erase_ne hne] at hlookup
    obtain ⟨-, hkey, -⟩ := h.entry k e' hlookup
    refine ⟨hlookup, ?_⟩
    rw [overlay, effect_of_appRemoved htype, if_neg, getD_none]
    intro heq
    obtain ⟨hgroup, hobject⟩ := Prod.mk.inj heq
    exact hne (hkey.trans (by rw [hgroup, hobject]))
  · intro k st hst
    rw [overlay, effect_of_appRemoved htype] at hst
    split at hst
    · cases hst
    · rename_i hne
      refine ⟨hst, AList.lookup_erase_ne fun heq => hne ?_⟩
      obtain ⟨hgroup, hobject⟩ := stateKey_inj (h.covers_dotless hst) hdot heq
      exact Prod.ext hgroup.symm hobject.symm

theorem lookup_foldl_erase (g k : String) (agents : List ((_ : String) × Event ν))
    (states : AList fun _ : String => Event ν) :
    (agents.foldl (fun states agent =>
        if agent.2.groupId = g then states.erase agent.1 else states) states).lookup k =
      if ∃ agent ∈ agents, agent.1 = k ∧ agent.2.groupId = g then none
      else states.lookup k := by
  induction agents generalizing states with
  | nil => rw [if_neg (by simp), foldl_nil]
  | cons agent agents ih =>
    rw [foldl_cons, ih]
    by_cases hrest : ∃ agent ∈ agents, agent.1 = k ∧ agent.2.groupId = g
    · obtain ⟨agent', hmem, hk⟩ := hrest
      rw [if_pos ⟨agent', hmem, hk⟩, if_pos ⟨agent', .tail _ hmem, hk⟩]
    · simp only [mem_cons, exists_eq_or_imp]
      by_cases hg : agent.2.groupId = g
      · by_cases hk : agent.1 = k
        · rw [if_neg hrest, if_pos hg, if_pos (.inl ⟨hk, hg⟩), hk, AList.lookup_erase]
        · rw [if_neg hrest, if_pos hg, if_neg (not_or_intro (fun h => hk h.1) hrest),
            AList.lookup_erase_ne fun h => hk h.symm]
      · rw [if_neg hrest, if_neg hg, if_neg (not_or_intro (fun h => hg h.2) hrest)]

theorem Tabled.cullAgents (h : Tabled states view) (htype : e.eventType = some .groupRemoved) :
    Tabled (states.entries.foldl (fun states agent =>
        if agent.2.groupId = e.groupId then states.erase agent.1 else states) states)
      (overlay view e.effect) := by
  refine h.drop ?_ ?_
  · intro k e' hlookup
    rw [lookup_foldl_erase] at hlookup
    obtain ⟨hnone, hlookup⟩ := ite_none_left_eq_some.mp hlookup
    refine ⟨hlookup, ?_⟩
    rw [overlay, effect_of_groupRemoved htype, if_neg, getD_none]
    exact fun heq => hnone ⟨⟨k, e'⟩, AList.mem_lookup_iff.mp hlookup, rfl, heq.symm⟩
  · intro k st hst
    rw [overlay, effect_of_groupRemoved htype] at hst
    split at hst
    · cases hst
    · rename_i hne
      refine ⟨hst, ?_⟩
      rw [lookup_foldl_erase, if_neg]
      rintro ⟨⟨key, e'⟩, hmem, rfl, heq⟩
      obtain ⟨e'', hlookup, rfl⟩ := h.covers k st hst
      obtain rfl := Option.some.inj (hlookup.symm.trans (AList.mem_lookup_iff.mpr hmem))
      exact hne heq.symm

theorem Tabled.setLatest (h : Tabled states view) (hdot : '.' ∉ e.groupId.toList)
    (hgroup : e.eventType ≠ some .groupRemoved) (happ : e.eventType ≠ some .appRemoved) :
    Tabled (states.insert (stateKey e.groupId e.object) ⟨e.groupId, e.object, none, none, e.state⟩)
      (overlay view e.effect) := by
  constructor
  · intro k e' hlookup
    rw [overlay, effect_of_set hgroup happ]
    by_cases hk : k = stateKey e.groupId e.object
    · rw [hk, AList.lookup_insert] at hlookup
      cases hlookup
      rw [if_pos rfl]
      exact ⟨hdot, hk, rfl, rfl⟩
    · rw [AList.lookup_insert_ne hk] at hlookup
      obtain ⟨hdot', hkey, htype, hstate⟩ := h.entry k e' hlookup
      rw [if_neg, getD_none]
      · exact ⟨hdot', hkey, htype, hstate⟩
      · intro heq
        obtain ⟨hg, ho⟩ := Prod.mk.inj heq
        exact hk (hkey.trans (by rw [hg, ho]))
  · intro k st hst
    rw [overlay, effect_of_set hgroup happ] at hst
    split at hst
    · rename_i heq
      subst heq
      exact ⟨_, AList.lookup_insert _, rfl⟩
    · rename_i hne
      rw [AList.lookup_insert_ne]
      · exact h.covers k st hst
      · intro heq
        obtain ⟨hg, ho⟩ := stateKey_inj (h.covers_dotless hst) hdot heq
        exact hne (Prod.ext hg.symm ho.symm)

/-! ### The server -/

theorem Cluster.after_append (es : List (Event ν)) (e : Event ν) :
    Cluster.after (es ++ [e]) = overlay (Cluster.after es) e.effect := by
  rw [Cluster.after, foldl_append]
  rfl

/-- The server knows the history: how long it is, the end of it, and what it comes to. -/
structure Tracks {ρ : Type} (s : Server ρ ν) (c : Cluster ν) : Prop where
  curSeq : s.curSeq = c.history.length + 2
  nearSeq : s.nearSeq = max 1 (s.curSeq - maxEntries)
  recent : ∀ (j : ℕ) e, c.history[j]? = some e → s.curSeq ≤ j + 2 + maxEntries →
    s.recentEvents (j + 2) = some e
  latest : Tabled s.latestStates c.latest
  removed : s.removedGroups = c.removed

section

variable {ρ : Type} {s : Server ρ ν} {c : Cluster ν}

/-- What an event that counts does, whatever its type is. -/
theorem Tracks.accept (h : Tracks s c) (s' : Server ρ ν) {e : Event ν} {removed : String → Bool}
    (hcur : s'.curSeq = s.curSeq) (hnear : s'.nearSeq = s.nearSeq)
    (hrecent : s'.recentEvents = (s.record e).recentEvents)
    (hlatest : Tabled s'.latestStates (overlay c.latest e.effect))
    (hremoved : s'.removedGroups = removed) :
    Tracks (s'.incrementSequence.notifyParkedRequests e).1 ⟨removed, c.history ++ [e]⟩ := by
  have hlength := h.curSeq
  constructor
  · show s'.curSeq + 1 = ((c.history ++ [e]).length : ℤ) + 2
    rw [hcur, hlength, length_append, length_singleton]
    omega
  · show (if s'.nearSeq < s'.curSeq + 1 - maxEntries then s'.nearSeq + 1 else s'.nearSeq) =
      max 1 (s'.curSeq + 1 - maxEntries)
    rw [hcur, hnear, h.nearSeq]
    split <;> omega
  · intro j e' he' hwindow
    have hnew : s'.curSeq + 1 ≤ j + 2 + maxEntries := hwindow
    show s'.recentEvents (j + 2) = some e'
    rw [hrecent]
    simp only [Server.record]
    rw [if_neg (by omega)]
    rcases Nat.lt_trichotomy j c.history.length with hlt | heq | hgt
    · rw [if_neg (by omega)]
      rw [getElem?_append_left hlt] at he'
      exact h.recent j e' he' (by omega)
    · rw [if_pos (by omega)]
      rw [heq, getElem?_append_right (Nat.le_refl _), Nat.sub_self] at he'
      exact he'
    · rw [getElem?_eq_none (by rw [length_append, length_singleton]; omega)] at he'
      cases he'
  · have hafter : Cluster.latest ⟨removed, c.history ++ [e]⟩ = overlay c.latest e.effect :=
      Cluster.after_append c.history e
    rw [hafter]
    exact hlatest
  · exact hremoved

/-- An event of a removed group changes nothing; any other goes to those who wait. -/
theorem Tracks.processEvent (h : Tracks s c) {e : Event ν} (hdot : '.' ∉ e.groupId.toList) :
    (s.processEvent e = (s, []) ∧ c.step e = c) ∨
      (Tracks (s.processEvent e).1 (c.step e) ∧ (c.step e).history = c.history ++ [e] ∧
        (s.processEvent e).1.parkedRequests = [] ∧
        (s.processEvent e).2 = s.parkedRequests.map fun v =>
          (v.request, .success (formatResponse (s.curSeq + 1) [e] false))) := by
  rw [Server.processEvent, Cluster.step, h.removed]
  split
  · exact .inl ⟨rfl, rfl⟩
  rename_i hcounts
  refine .inr ?_
  have hremoved : ∀ group, s.removedGroups group = c.removed group := congrFun h.removed
  split
  · rename_i htype
    refine ⟨?_, rfl, rfl, rfl⟩
    refine h.accept (((s.record e).setRemoved e.groupId true).cullAgentsForGroup e.groupId)
      rfl rfl rfl (h.latest.cullAgents htype) ?_
    simp [Server.cullAgentsForGroup, Server.setRemoved, Server.record, hremoved, htype]
  · rename_i htype
    refine ⟨?_, rfl, rfl, rfl⟩
    refine h.accept ((s.record e).cullAgentForGroup e.groupId e.object)
      rfl rfl rfl (h.latest.cullAgent hdot htype) ?_
    funext group
    have hlive : c.removed e.groupId = false :=
      Bool.eq_false_iff.mpr fun hr => hcounts ⟨hr, by simp [htype]⟩
    simp only [Server.cullAgentForGroup, Server.record, hremoved, htype]
    split
    · rename_i heq
      rw [heq, hlive]
      rfl
    · rfl
  · rename_i htype
    refine ⟨?_, rfl, rfl, rfl⟩
    refine h.accept (((s.record e).setRemoved e.groupId false).setLatest e)
      rfl rfl rfl (h.latest.setLatest hdot (by simp [htype]) (by simp [htype])) ?_
    funext group
    simp only [Server.setLatest, Server.setRemoved, Server.record, hremoved, htype]
    split <;> rfl
  · rename_i hgroup happ hadded
    refine ⟨?_, rfl, rfl, rfl⟩
    refine h.accept ((s.record e).setLatest e)
      rfl rfl rfl (h.latest.setLatest hdot hgroup happ) ?_
    funext group
    have hlive : c.removed e.groupId = false :=
      Bool.eq_false_iff.mpr fun hr => hcounts ⟨hr, hadded⟩
    simp only [Server.setLatest, Server.record, hremoved]
    split
    · rename_i heq
      rw [heq, hlive, decide_eq_false hgroup]
    · rfl

theorem filterMap_range_getElem? {α : Type} (l : List α) :
    ((List.range l.length).filterMap fun i => l[i]?) = l := by
  induction l with
  | nil => rfl
  | cons a l ih =>
    rw [length_cons, range_succ_eq_map, filterMap_cons, filterMap_map]
    exact congrArg (a :: ·) ih

/-- The events since a number that is not too old are all there. -/
theorem Tracks.recent_eq (h : Tracks s c) {seq : ℤ} (hnear : s.nearSeq ≤ seq)
    (hcur : seq < s.curSeq - 1) :
    ((List.range (s.curSeq - 1 - seq).toNat).filterMap fun i : ℕ =>
        s.recentEvents (seq + 1 + i)) =
      c.history.drop (seq - 1).toNat := by
  have hlength := h.curSeq
  rw [h.nearSeq] at hnear
  have hcount : (s.curSeq - 1 - seq).toNat = (c.history.drop (seq - 1).toNat).length := by
    rw [length_drop]
    omega
  rw [hcount]
  refine .trans (filterMap_congr fun i hi => ?_)
    (filterMap_range_getElem? (c.history.drop (seq - 1).toNat))
  have hlt := mem_range.mp hi
  have hget : c.history[(seq - 1).toNat + i]? =
      some (c.history.get ⟨(seq - 1).toNat + i, by omega⟩) := getElem?_eq_getElem (by omega)
  have hindex : seq + 1 + i = (((seq - 1).toNat + i : ℕ) : ℤ) + 2 := by omega
  rw [getElem?_drop, hget, hindex]
  exact h.recent _ _ hget (by omega)

/-- Events that have been seen already may be sent again. -/
theorem Cluster.replay (es : List (Event ν)) {m n : ℕ} (h : m ≤ n) :
    (es.drop m).foldl (fun view e => overlay view e.effect) (Cluster.after (es.take n)) =
      Cluster.after es := by
  have hdrop : (es.drop m).take (n - m) ++ es.drop n = es.drop m := by
    have hsplit := take_append_drop (n - m) (es.drop m)
    rwa [drop_drop, Nat.add_sub_cancel' h] at hsplit
  have htake : es.take n = es.take m ++ (es.drop m).take (n - m) := by
    rw [← take_add, Nat.add_sub_cancel' h]
  rw [← hdrop, htake, Cluster.after, foldl_append, foldl_append, foldl_overlay_again,
    ← foldl_append, ← foldl_append, hdrop, take_append_drop]
  rfl

/-- What the server does with the request of a client that holds the states after `n` events:
it waits if that is all of them, and is brought up to date otherwise. -/
theorem Tracks.events (h : Tracks s c) {n : ℕ} {seq : ℤ} (hn : n ≤ c.history.length)
    (hseq : seq ≤ n + 1) (pairs : Enumeration (Event ν)) (now : ℕ) (req : ρ) :
    (s.events pairs now req seq =
        ({ s with parkedRequests := s.parkedRequests ++ [⟨now, req⟩] }, []) ∧
      n = c.history.length) ∨
    ∃ r, s.events pairs now req seq = (s, [(req, .success r)]) ∧ r.seq = c.history.length + 1 ∧
      r.applyTo (Cluster.after (c.history.take n)) = c.latest := by
  have hlength := h.curSeq
  rw [Server.events]
  split
  · refine .inr ⟨_, rfl, ?_, ?_⟩
    · show s.curSeq - 1 = _
      omega
    · rw [applyTo_formatResponse]
      exact h.latest.refresh pairs
  · split
    · exact .inl ⟨rfl, by omega⟩
    · refine .inr ⟨_, rfl, ?_, ?_⟩
      · show s.curSeq - 1 = _
        omega
      · rw [h.recent_eq (by omega) (by omega), applyTo_formatResponse]
        exact Cluster.replay c.history (by omega)

theorem events_frame (s : Server ρ ν) (pairs : Enumeration (Event ν)) (now : ℕ) (req : ρ)
    (seq : ℤ) :
    (∃ more, (s.events pairs now req seq).1 =
        { s with parkedRequests := s.parkedRequests ++ more } ∧ ∀ p ∈ more, p.request = req) ∧
      ∀ r ∈ (s.events pairs now req seq).2, r.1 = req := by
  have hsame : ∃ more, s = { s with parkedRequests := s.parkedRequests ++ more } ∧
      ∀ p ∈ more, p.request = req :=
    ⟨[], by rw [append_nil], nofun⟩
  rw [Server.events]
  split
  · refine ⟨hsame, fun r hr => ?_⟩
    obtain rfl := mem_singleton.mp hr
    rfl
  · split
    · refine ⟨⟨[⟨now, req⟩], rfl, fun p hp => ?_⟩, nofun⟩
      obtain rfl := mem_singleton.mp hp
      rfl
    · refine ⟨hsame, fun r hr => ?_⟩
      obtain rfl := mem_singleton.mp hr
      rfl

theorem Tracks.setParked (h : Tracks s c) (parked : List (ParkedRequest ρ)) :
    Tracks { s with parkedRequests := parked } c :=
  { h with }

/-- The requests that wait. -/
def Server.waiting (s : Server ρ ν) : List ρ := s.parkedRequests.map ParkedRequest.request

/-- A stale request gets an error, and all others stay. -/
theorem purgeLoop_spec (now : ℕ) (parked : List (ParkedRequest ρ))
    (purged : List (ParkedRequest ρ) × List (ρ × Reply ν))
    (h : Server.purgeLoop now parked = purged) :
    (parked.map ParkedRequest.request).Perm
        (purged.2.map Prod.fst ++ purged.1.map ParkedRequest.request) ∧
      ∀ r ∈ purged.2, r.2 = .error "Request timed out" ubusStatusTimeout := by
  subst h
  fun_induction Server.purgeLoop with
  | case1 => exact ⟨.refl _, nofun⟩
  | case2 v hstale =>
    refine ⟨.refl _, fun r hr => ?_⟩
    obtain rfl := mem_singleton.mp hr
    rfl
  | case3 v hstale next rest ih =>
    refine ⟨?_, fun r hr => ?_⟩
    · exact ((ih.1.cons _).trans perm_middle.symm).cons _
    · rcases mem_cons.mp hr with rfl | hmem
      · rfl
      · exact ih.2 r hmem
  | case4 v rest hfresh ih =>
    refine ⟨?_, ih.2⟩
    exact (ih.1.cons _).trans perm_middle.symm

end

/-! ### The clients -/

/-- What a client holds are the states after some of the events, and its number is not
beyond them; if it waits it has seen them all. -/
structure Informed (c : Cluster ν) (client : Client ν) : Prop where
  seq : ∃ n ≤ c.history.length, client.seq ≤ n + 1 ∧
    client.view = Cluster.after (c.history.take n)
  asOf : ∀ v, client.asOf = some v → client.view = v
  parked : client.phase = .parked → client.view = c.latest
  answered : ∀ r v, client.phase = .answered (.success r) v → r.applyTo client.view = v ∧
    ∃ n ≤ c.history.length, r.seq = n + 1 ∧ v = Cluster.after (c.history.take n)

section

variable {c c' : Cluster ν} {client : Client ν}

variable {e : Event ν}

theorem after_take_append {n : ℕ} (h : c'.history = c.history ++ [e]) (hn : n ≤ c.history.length) :
    n ≤ c'.history.length ∧
      Cluster.after (c'.history.take n) = Cluster.after (c.history.take n) := by
  rw [h, length_append, take_append_of_le_length hn]
  exact ⟨Nat.le_add_right_of_le hn, rfl⟩

theorem Informed.grow (h : Informed c client) (hgrow : c'.history = c.history ++ [e])
    (hphase : client.phase ≠ .parked) : Informed c' client := by
  refine ⟨?_, h.asOf, fun hparked => absurd hparked hphase, fun r v hr => ?_⟩
  · obtain ⟨n, hn, hseq, hview⟩ := h.seq
    obtain ⟨hn', hafter⟩ := after_take_append hgrow hn
    exact ⟨n, hn', hseq, hview.trans hafter.symm⟩
  · obtain ⟨happly, n, hn, hseq, hv⟩ := h.answered r v hr
    obtain ⟨hn', hafter⟩ := after_take_append hgrow hn
    exact ⟨happly, n, hn', hseq, hv.trans hafter.symm⟩

/-- A client that waits gets the event that it does not know yet. -/
theorem Informed.notify (h : Informed c client) (hgrow : c'.history = c.history ++ [e])
    (hparked : client.phase = .parked) {curSeq : ℤ} (hcur : curSeq = c'.history.length + 2) :
    Informed c' (client.answer (.success (formatResponse curSeq [e] false)) c'.latest) := by
  refine ⟨?_, h.asOf, nofun, fun r v hr => ?_⟩
  · obtain ⟨n, hn, hseq, hview⟩ := h.seq
    obtain ⟨hn', hafter⟩ := after_take_append hgrow hn
    exact ⟨n, hn', hseq, hview.trans hafter.symm⟩
  · obtain ⟨hreply, rfl⟩ := Phase.answered.inj hr
    obtain rfl := Reply.success.inj hreply
    refine ⟨?_, c'.history.length, Nat.le_refl _, ?_, ?_⟩
    · rw [applyTo_formatResponse, Cluster.latest, hgrow, Cluster.after_append]
      show overlay client.view e.effect = _
      rw [h.parked hparked]
      rfl
    · show curSeq - 1 = _
      omega
    · rw [take_length]
      rfl

theorem Informed.setPhase (h : Informed c client) {phase : Phase ν}
    (hparked : phase = .parked → client.view = c.latest)
    (hanswered : ∀ r v, phase ≠ .answered (.success r) v) :
    Informed c { client with phase := phase } :=
  ⟨h.seq, h.asOf, hparked, fun r v hr => absurd hr (hanswered r v)⟩

theorem Informed.receive {wire : ℤ → ℤ} (hwire : ∀ n, 0 ≤ n → wire n ≤ n) {client' : Client ν}
    (h : Informed c client) (hreceive : client.receive wire = some client') :
    Informed c client' ∧ client'.phase = .idle := by
  rw [Client.receive] at hreceive
  split at hreceive
  · rename_i r v hphase
    cases hreceive
    obtain ⟨happly, n, hn, hseq, hv⟩ := h.answered r v hphase
    refine ⟨⟨⟨n, hn, ?_, happly.trans hv⟩, fun v' hv' => ?_, nofun,
      nofun⟩, rfl⟩
    · exact hseq ▸ hwire r.seq (by omega)
    · exact happly.trans (Option.some.inj hv')
  · cases hreceive
    refine ⟨h.setPhase nofun fun _ _ hr => ?_, rfl⟩
    · cases hr
  · cases hreceive

end

/-! ### Whole runs -/

/-- The invariant: the server knows the history, the clients what they should, and a client
waits if and only if its request is parked, once. -/
structure Sound [DecidableEq ι] (s : Polling ι ν) : Prop where
  tracks : Tracks s.server s.cluster
  informed : ∀ i, Informed s.cluster (s.clients i)
  parked : ∀ i, (s.clients i).phase = .parked ↔ some i ∈ s.server.waiting
  once : ∀ i, s.server.waiting.count (some i) ≤ 1

section

variable [DecidableEq ι] {s : Polling ι ν}

theorem sound_initial : Sound (Polling.initial : Polling ι ν) := by
  refine ⟨⟨rfl, rfl, nofun, ⟨nofun, nofun⟩, rfl⟩, fun i => ?_,
    fun i => ?_, fun i => Nat.zero_le 1⟩
  · refine ⟨⟨0, Nat.le_refl 0, ?_, rfl⟩, nofun, nofun, nofun⟩
    · show (0 : ℤ) ≤ (0 : ℕ) + 1
      decide
  · refine ⟨nofun, nofun⟩

variable {i : ι}

/-- One client changes, and is not among those who wait before or after. -/
theorem Sound.setClient (h : Sound s) {client : Client ν} (hinformed : Informed s.cluster client)
    (hbefore : (s.clients i).phase ≠ .parked) (hafter : client.phase ≠ .parked) :
    Sound (s.setClient i client) := by
  refine ⟨h.tracks, fun j => ?_, fun j => ?_, h.once⟩
  · show Informed s.cluster (if j = i then client else s.clients j)
    split
    · exact hinformed
    · exact h.informed j
  · show (if j = i then client else s.clients j).phase = .parked ↔ some j ∈ s.server.waiting
    split
    · rename_i heq
      subst heq
      rw [← h.parked j]
      exact iff_of_false hafter hbefore
    · exact h.parked j

theorem Sound.change (h : Sound s) {e : Event ν} (hdot : '.' ∉ e.groupId.toList) :
    Sound ({ s with cluster := s.cluster.step e }.send (s.server.processEvent e)) := by
  rcases h.tracks.processEvent hdot with ⟨hignored, hsame⟩ | ⟨htracks, hgrow, hparked, hreplies⟩
  · rw [hignored, hsame]
    exact h
  have hcur : s.server.curSeq + 1 = (s.cluster.step e).history.length + 2 := by
    rw [hgrow, length_append, length_singleton, h.tracks.curSeq]
    omega
  have hwaiting : (s.server.processEvent e).1.waiting = [] := by
    rw [Server.waiting, hparked, map_nil]
  -- A client that waits is found among the replies, and nobody else.
  have hclient : ∀ i, Informed (s.cluster.step e)
      (({ s with cluster := s.cluster.step e }.send (s.server.processEvent e)).clients i) ∧
      (({ s with cluster := s.cluster.step e }.send (s.server.processEvent e)).clients i).phase ≠
        .parked := by
    intro i
    simp only [Polling.send, hreplies]
    split
    · rename_i r hr
      have hfound := find?_some hr
      obtain ⟨p, hp, rfl⟩ := List.mem_map.mp (mem_of_find?_eq_some hr)
      have hphase : (s.clients i).phase = .parked :=
        (h.parked i).mpr (List.mem_map.mpr ⟨p, hp, of_decide_eq_true hfound⟩)
      refine ⟨(h.informed i).notify hgrow hphase hcur, fun hparked => ?_⟩
      cases hparked
    · rename_i hnone
      have hphase : (s.clients i).phase ≠ .parked := by
        intro hphase
        obtain ⟨p, hp, hreq⟩ := List.mem_map.mp ((h.parked i).mp hphase)
        exact find?_eq_none.mp hnone _ (List.mem_map.mpr ⟨p, hp, rfl⟩) (decide_eq_true hreq)
      exact ⟨(h.informed i).grow hgrow hphase, hphase⟩
  refine ⟨htracks, fun i => (hclient i).1, fun i => ?_, fun i => ?_⟩
  · show _ ↔ some i ∈ (s.server.processEvent e).1.waiting
    rw [hwaiting]
    exact iff_of_false (hclient i).2 not_mem_nil
  · show (s.server.processEvent e).1.waiting.count (some i) ≤ 1
    rw [hwaiting]
    exact Nat.zero_le 1

/-- A request is parked if its client has seen everything. -/
theorem Sound.park (h : Sound s) (hasked : (s.clients i).phase = .asked)
    (hview : (s.clients i).view = s.cluster.latest) (now : ℕ) :
    Sound ((s.setClient i { s.clients i with phase := .parked }).send
      ({ s.server with parkedRequests := s.server.parkedRequests ++ [⟨now, some i⟩] }, [])) := by
  have hnot : some i ∉ s.server.waiting := by
    rw [← h.parked i, hasked]
    intro heq
    cases heq
  have hwaiting : Server.waiting { s.server with
      parkedRequests := s.server.parkedRequests ++ [⟨now, some i⟩] } =
        s.server.waiting ++ [some i] := map_append
  refine ⟨h.tracks.setParked _, fun j => ?_, fun j => ?_, fun j => ?_⟩
  · show Informed s.cluster (if j = i then { s.clients i with phase := .parked } else s.clients j)
    split
    · refine (h.informed i).setPhase (fun _ => hview) fun _ _ hr => ?_
      cases hr
    · exact h.informed j
  · show (if j = i then { s.clients i with phase := .parked } else s.clients j).phase = .parked ↔
      some j ∈ Server.waiting { s.server with
        parkedRequests := s.server.parkedRequests ++ [⟨now, some i⟩] }
    rw [hwaiting, mem_append, mem_singleton]
    split
    · rename_i heq
      exact iff_of_true rfl (.inr (congrArg some heq))
    · rename_i hne
      rw [h.parked j]
      exact ⟨.inl, fun hmem => hmem.resolve_right fun heq => hne (Option.some.inj heq)⟩
  · show (Server.waiting { s.server with
        parkedRequests := s.server.parkedRequests ++ [⟨now, some i⟩] }).count (some j) ≤ 1
    rw [hwaiting, count_append, count_singleton]
    by_cases hj : j = i
    · rw [hj, count_eq_zero_of_not_mem hnot]
      split <;> omega
    · rw [if_neg fun heq => hj (Option.some.inj (eq_of_beq heq)).symm]
      exact h.once j

/-- A reply at once goes to the client that has asked, and to no other. -/
theorem clients_send_reply (s : Polling ι ν) (i : ι) (r : Response ν) :
    ((s.setClient i { s.clients i with phase := .parked }).send
        (s.server, [(some i, .success r)])).clients =
      (s.setClient i ((s.clients i).answer (.success r) s.cluster.latest)).clients := by
  funext j
  simp only [Polling.send, Polling.setClient, find?_cons, find?_nil]
  by_cases hj : j = i
  · subst hj
    simp only [decide_true, if_true]
    rfl
  · have hne : ¬some i = some j := fun heq => hj (Option.some.inj heq).symm
    simp only [decide_eq_false hne, if_neg hj]

theorem Sound.serve (h : Sound s) (hasked : (s.clients i).phase = .asked)
    (pairs : Enumeration (Event ν)) (now : ℕ) :
    Sound ((s.setClient i { s.clients i with phase := .parked }).send
      (s.server.events pairs now (some i) (s.clients i).seq)) := by
  obtain ⟨n, hn, hseq, hview⟩ := (h.informed i).seq
  rcases h.tracks.events hn hseq pairs now (some i) with ⟨heq, hall⟩ | ⟨r, heq, hr, happly⟩
  · rw [heq]
    refine h.park hasked ?_ now
    rw [hview, hall, take_length]
    rfl
  · rw [heq]
    have hclients := clients_send_reply s i r
    have hinformed : Informed s.cluster
        ((s.clients i).answer (.success r) s.cluster.latest) := by
      refine ⟨⟨n, hn, hseq, hview⟩, (h.informed i).asOf, nofun, fun r' v hr' => ?_⟩
      · obtain ⟨hreply, rfl⟩ := Phase.answered.inj hr'
        obtain rfl := Reply.success.inj hreply
        refine ⟨?_, s.cluster.history.length, Nat.le_refl _, hr, ?_⟩
        · show r.applyTo (s.clients i).view = _
          rw [hview, happly]
        · rw [take_length]
          rfl
    have hsound := h.setClient (i := i) hinformed (by simp [hasked]) (by simp [Client.answer])
    exact ⟨h.tracks, fun j => hclients ▸ hsound.informed j, fun j => hclients ▸ hsound.parked j,
      h.once⟩

theorem Sound.serveOther (h : Sound s) (seq : ℤ) (pairs : Enumeration (Event ν)) (now : ℕ) :
    Sound (s.send (s.server.events pairs now none seq)) := by
  obtain ⟨⟨more, hserver, hmore⟩, hreplies⟩ := events_frame s.server pairs now none seq
  have hwaiting : ∀ i, some i ∉ more.map ParkedRequest.request := by
    intro i hmem
    obtain ⟨p, hp, hreq⟩ := List.mem_map.mp hmem
    cases (hmore p hp).symm.trans hreq
  have happend : (s.server.events pairs now none seq).1.waiting =
      s.server.waiting ++ more.map ParkedRequest.request := by
    rw [hserver]
    exact map_append
  have hclients : ∀ i, (s.send (s.server.events pairs now none seq)).clients i = s.clients i := by
    intro i
    simp only [Polling.send]
    split
    · rename_i r hr
      have hfound := find?_some hr
      cases (hreplies r (mem_of_find?_eq_some hr)).symm.trans (of_decide_eq_true hfound)
    · rfl
  refine ⟨?_, fun i => ?_, fun i => ?_, fun i => ?_⟩
  · show Tracks (s.server.events pairs now none seq).1 s.cluster
    rw [hserver]
    exact h.tracks.setParked _
  · rw [hclients]
    exact h.informed i
  · rw [hclients, h.parked i]
    show _ ↔ some i ∈ (s.server.events pairs now none seq).1.waiting
    rw [happend, mem_append, or_iff_left (hwaiting i)]
  · show (s.server.events pairs now none seq).1.waiting.count (some i) ≤ 1
    rw [happend, count_append, count_eq_zero_of_not_mem (hwaiting i)]
    exact h.once i

/-- A request that is purged was parked once, so that it is parked no more. -/
theorem Sound.purge (h : Sound s) (now : ℕ) :
    Sound (s.send (s.server.purgeStaleRequests now)) := by
  obtain ⟨hperm, herror⟩ := purgeLoop_spec now s.server.parkedRequests
    ((s.server.purgeStaleRequests now).1.parkedRequests, (s.server.purgeStaleRequests now).2) rfl
  have hcount : ∀ i, s.server.waiting.count (some i) =
      ((s.server.purgeStaleRequests now).2.map Prod.fst).count (some i) +
        (s.server.purgeStaleRequests now).1.waiting.count (some i) := by
    intro i
    rw [← count_append]
    exact hperm.count_eq _
  refine ⟨h.tracks.setParked _, fun i => ?_, fun i => ?_, fun i => ?_⟩
  · simp only [Polling.send]
    split
    · rename_i r hr
      refine (h.informed i).setPhase nofun fun r' v hr' => ?_
      · obtain ⟨hreply, -⟩ := Phase.answered.inj hr'
        cases (herror r (mem_of_find?_eq_some hr)).symm.trans hreply
    · exact h.informed i
  · have honce := h.once i
    have hparked := h.parked i
    rw [← count_pos_iff, hcount] at hparked
    rw [hcount] at honce
    rw [← count_pos_iff]
    simp only [Polling.send]
    split
    · rename_i r hr
      have hfound := find?_some hr
      have hreplied : 0 < ((s.server.purgeStaleRequests now).2.map Prod.fst).count (some i) :=
        count_pos_iff.mpr (List.mem_map.mpr
          ⟨r, mem_of_find?_eq_some hr, of_decide_eq_true hfound⟩)
      refine iff_of_false (fun hphase => ?_) (by omega)
      cases hphase
    · rename_i hnone
      have hsilent : ((s.server.purgeStaleRequests now).2.map Prod.fst).count (some i) = 0 := by
        refine count_eq_zero_of_not_mem fun hmem => ?_
        obtain ⟨r, hr, hreq⟩ := List.mem_map.mp hmem
        exact find?_eq_none.mp hnone r hr (decide_eq_true hreq)
      rw [hparked, hsilent, Nat.zero_add]
  · have honce := h.once i
    rw [hcount] at honce
    show (s.server.purgeStaleRequests now).1.waiting.count (some i) ≤ 1
    omega

end

/-- The groups of the changes have no dot in their names. -/
def PollingEvent.Dotless (e : PollingEvent ι ν) : Prop :=
  match e with
  | .change event => '.' ∉ event.groupId.toList
  | _ => True

instance (e : PollingEvent ι ν) : Decidable e.Dotless :=
  match e with
  | .change _ => inferInstanceAs (Decidable (_ ∉ _))
  | .poll _ | .serve _ _ _ | .serveOther _ _ _ | .purge _ | .receive _ =>
    inferInstanceAs (Decidable True)

theorem Sound.step [DecidableEq ι] {wire : ℤ → ℤ} (hwire : ∀ n, 0 ≤ n → wire n ≤ n)
    {s s' : Polling ι ν} {e : PollingEvent ι ν} (h : Sound s) (hdot : e.Dotless)
    (hstep : s.step wire e = some s') : Sound s' := by
  cases e with try cases hstep
  | change event =>
    exact h.change hdot
  | poll i =>
    simp only [Polling.step] at hstep
    split at hstep
    · rename_i hidle
      cases hstep
      refine h.setClient ((h.informed i).setPhase nofun fun _ _ hr => ?_)
        (by simp [hidle]) (by simp)
      · cases hr
    · cases hstep
  | serve i pairs now =>
    simp only [Polling.step] at hstep
    split at hstep
    · rename_i hasked
      cases hstep
      exact h.serve hasked pairs now
    · cases hstep
  | serveOther seq pairs now =>
    exact h.serveOther seq pairs now
  | purge now =>
    exact h.purge now
  | receive i =>
    obtain ⟨client, hreceive, rfl⟩ := map_eq_some_iff.mp hstep
    obtain ⟨hinformed, hidle⟩ := (h.informed i).receive hwire hreceive
    refine h.setClient hinformed (fun hparked => ?_) (by simp [hidle])
    simp [Client.receive, hparked] at hreceive

/-- After each response a client holds the latest states when the response was sent; and
while its request is parked it holds the latest states. -/
theorem polling_lossless [DecidableEq ι] {wire : ℤ → ℤ} (hwire : ∀ n, 0 ≤ n → wire n ≤ n)
    {s : Polling ι ν}
    (h : (polling ι ν wire).ReachableUnder (fun _ e => e.Dotless) s) (i : ι) :
    (∀ v, (s.clients i).asOf = some v → (s.clients i).view = v) ∧
      ((s.clients i).phase = .parked → (s.clients i).view = s.cluster.latest) := by
  have hsound : Sound s := h.invariant sound_initial
    fun _ _ _ hs hdot hstep => hs.step hwire hdot hstep
  exact ⟨(hsound.informed i).asOf, (hsound.informed i).parked⟩

/-- The client gets a refresh, waits for an app that is added, and then gets its removal
together with a change of the group; numbers on the bus have 32 bits. -/
theorem polling_lossless_app_removed :
    ∃ (s : Polling Unit ℕ) (v : View ℕ),
      (polling Unit ℕ fun n => n % 0x100000000).ReachableUnder (fun _ e => e.Dotless) s ∧
        (s.clients ()).asOf = some v ∧ (s.clients ()).view = v ∧
        v ("g", "audio") = some (some 3) ∧ v ("g", "app.x") = none := by
  obtain ⟨s, -, hreachable, htest⟩ := System.exists_reachableUnder
    (polling Unit ℕ fun n => n % 0x100000000) (fun _ e => e.Dotless)
    [.change ⟨"g", "audio", some .groupAdded, none, some 1⟩, .poll (), .serve () .inOrder 0,
      .receive (), .poll (), .serve () .inOrder 1,
      .change ⟨"g", "app.x", some (.other "app_added"), none, some 2⟩, .receive (),
      .change ⟨"g", "app.x", some .appRemoved, none, none⟩,
      .change ⟨"g", "audio", some (.other "volume"), none, some 3⟩,
      .poll (), .serve () .inOrder 2, .receive ()]
    (fun s => ((s.clients ()).asOf.map fun v => (v ("g", "audio"), v ("g", "app.x"))) =
      some (some (some 3), none))
    (by decide +kernel) (by decide +kernel)
  obtain ⟨v, hasOf, hv⟩ := map_eq_some_iff.mp htest
  obtain ⟨haudio, happ⟩ := Prod.mk.inj hv
  have hwire : ∀ n : ℤ, 0 ≤ n → n % 0x100000000 ≤ n := by
    omega
  exact ⟨s, v, hreachable, hasOf, (polling_lossless hwire hreachable ()).1 v hasOf, haudio, happ⟩

end BeepMusic.Beephead

import Mathlib.Data.List.Induction
import Mathlib.Data.List.Nodup

/-!
The access points that the daemon of `wifisetup` knows, in the order in which they were
found. Each scan is merged into the list: an entry that is missed by three scans in a row is
removed, and a scan that finds nothing has failed and does not count.
-/

namespace BeepMusic.Wifisetup

/-- `struct AP`. The counter stays below 3. -/
structure AP where
  essid : Option String
  encType : UInt8
  bssid : Vector UInt8 6
  signal : Int8
  channel : UInt8
  missCounter : ℕ
  deriving DecidableEq

def findBssidInList (bssid : Vector UInt8 6) (list : List AP) : Option AP :=
  list.find? fun ap => ap.bssid = bssid

/-- A turn of the first loop. `none`: the entry is removed. -/
def age (listB : List AP) (head : AP) : Option AP :=
  if (findBssidInList head.bssid listB).isSome then some head
  else if 3 ≤ head.missCounter + 1 then none
  else some { head with missCounter := head.missCounter + 1 }

/-- A turn of the second loop: the first entry with this BSSID is updated, or a copy of
`head` is appended. -/
def merge (head : AP) : List AP → List AP
  | [] => [head]
  | target :: rest =>
    if target.bssid = head.bssid then
      { target with
        essid := head.essid
        encType := head.encType
        signal := head.signal
        channel := head.channel
        missCounter := 0 } :: rest
    else target :: merge head rest

/-- The second loop. -/
def mergeAll (listB listA : List AP) : List AP :=
  listB.foldl (fun list head => merge head list) listA

def updateScanApLists (listA listB : List AP) : List AP :=
  if listB = [] then listA else mergeAll listB (listA.filterMap (age listB))

variable (scans : List (List AP))

/-- The list after some scans. -/
def scanList : List AP := scans.foldl updateScanApLists []

/-! ### The loops -/

variable {list scan : List AP} {head ap : AP}

theorem map_bssid_merge (head : AP) (list : List AP) :
    (merge head list).map AP.bssid =
      list.map AP.bssid ++ if head.bssid ∈ list.map AP.bssid then [] else [head.bssid] := by
  induction list with
  | nil => rfl
  | cons target rest ih => grind [merge]

theorem nodup_merge (head : AP) (h : (list.map AP.bssid).Nodup) :
    ((merge head list).map AP.bssid).Nodup := by
  rw [map_bssid_merge]
  grind [List.nodup_append]

theorem mem_merge (ap : AP) (hhead : head.missCounter = 0) (h : (list.map AP.bssid).Nodup) :
    ap ∈ merge head list ↔ ap = head ∨ ap ∈ list ∧ ap.bssid ≠ head.bssid := by
  induction list with
  | nil => simp [merge]
  | cons target rest ih =>
    cases head
    grind [merge]

/-- The second loop appends what it finds for the first time. -/
theorem map_bssid_mergeAll (scan : List AP) (h : (list.map AP.bssid).Nodup) :
    ∃ added, (mergeAll scan list).map AP.bssid = list.map AP.bssid ++ added ∧
      (list.map AP.bssid ++ added).Nodup ∧ ∀ b ∈ added, b ∈ scan.map AP.bssid := by
  induction scan generalizing list with
  | nil => exact ⟨[], by simp [mergeAll], by simpa using h, by simp⟩
  | cons head scan ih =>
    obtain ⟨added, hadded, hall, hscan⟩ := ih (nodup_merge head h)
    rw [map_bssid_merge, List.append_assoc] at hadded hall
    exact ⟨_, hadded, hall, by grind⟩

theorem isSome_find (b : Vector UInt8 6) (list : List AP) :
    (findBssidInList b list).isSome = decide (b ∈ list.map AP.bssid) := by
  rw [Bool.eq_iff_iff, findBssidInList, List.find?_isSome]
  simp

theorem isSome_find_reverse (b : Vector UInt8 6) (list : List AP) :
    (findBssidInList b list.reverse).isSome = decide (b ∈ list.map AP.bssid) := by
  rw [isSome_find, List.map_reverse, decide_eq_decide.mpr List.mem_reverse]

/-- The last sighting within the scan counts. -/
theorem mem_mergeAll (hscan : ∀ ap ∈ scan, ap.missCounter = 0) (h : (list.map AP.bssid).Nodup) :
    ap ∈ mergeAll scan list ↔ findBssidInList ap.bssid scan.reverse = some ap ∨
      ap ∈ list ∧ ap.bssid ∉ scan.map AP.bssid := by
  induction scan generalizing list with
  | nil => simp [mergeAll, findBssidInList]
  | cons head scan ih =>
    have hrest := ih (fun ap hap => hscan ap (.tail _ hap)) (nodup_merge head h)
    have hmerge := mem_merge ap (hscan head (.head _)) h
    have hlast : findBssidInList ap.bssid (head :: scan).reverse =
        (findBssidInList ap.bssid scan.reverse).or
          (if head.bssid = ap.bssid then some head else none) := by
      simp [findBssidInList, List.find?_singleton]
    rw [mergeAll, List.foldl_cons, ← mergeAll, hrest, hmerge, hlast, List.map_cons, List.mem_cons]
    have hseen := isSome_find_reverse ap.bssid scan
    cases hsight : findBssidInList ap.bssid scan.reverse with
    | none =>
      rw [hsight] at hseen
      have hne := of_decide_eq_false hseen.symm
      clear hrest ih hmerge
      split_ifs <;> grind
    | some last =>
      rw [hsight] at hseen
      have hmem := of_decide_eq_true hseen.symm
      simp [hmem]

theorem bssid_of_age (h : age scan head = some ap) : ap.bssid = head.bssid := by
  grind [age]

theorem map_bssid_filterMap_age (scan list : List AP) :
    ((list.filterMap (age scan)).map AP.bssid).Sublist (list.map AP.bssid) := by
  induction list with
  | nil => exact .slnil
  | cons ap list ih =>
    cases hage : age scan ap with
    | none =>
      rw [List.filterMap_cons_none hage]
      exact ih.cons _
    | some ap' =>
      rw [List.filterMap_cons_some hage, List.map_cons, List.map_cons, bssid_of_age hage]
      exact ih.cons_cons _

/-- An entry that a scan misses. -/
theorem mem_filterMap_age (h : ap.bssid ∉ scan.map AP.bssid) :
    ap ∈ list.filterMap (age scan) ↔ 0 < ap.missCounter ∧ ap.missCounter < 3 ∧
      { ap with missCounter := ap.missCounter - 1 } ∈ list := by
  have hmissed : ∀ head : AP, head.bssid = ap.bssid → age scan head =
      if 3 ≤ head.missCounter + 1 then none
      else some { head with missCounter := head.missCounter + 1 } := by
    intro head hhead
    rw [age, isSome_find, hhead, decide_eq_false h, if_neg Bool.false_ne_true]
  rw [List.mem_filterMap]
  constructor
  · rintro ⟨head, hhead, hage⟩
    rw [hmissed head (bssid_of_age hage).symm] at hage
    obtain ⟨hlt, heq⟩ := Option.ite_none_left_eq_some.mp hage
    cases heq
    exact ⟨Nat.succ_pos _, by dsimp only; omega, hhead⟩
  · rintro ⟨hpos, hlt, hhead⟩
    refine ⟨_, hhead, ?_⟩
    rw [hmissed { ap with missCounter := ap.missCounter - 1 } rfl, if_neg (by dsimp only; omega)]
    simp only [Nat.sub_add_cancel hpos]

/-! ### After any scans -/

/-- The scans that found something, the last one first. -/
def recent : List (List AP) := (scans.filter (· ≠ [])).reverse

theorem scanList_append (scan : List AP) :
    scanList (scans ++ [scan]) = updateScanApLists (scanList scans) scan := by
  simp [scanList]

theorem nodup_scanList : ((scanList scans).map AP.bssid).Nodup := by
  induction scans using List.reverseRecOn with
  | nil => exact List.nodup_nil
  | append_singleton scans scan ih =>
    rw [scanList_append, updateScanApLists]
    split_ifs
    · exact ih
    · obtain ⟨added, hadded, hall, -⟩ :=
        map_bssid_mergeAll scan (ih.sublist (map_bssid_filterMap_age scan _))
      rwa [hadded]

/-- An entry is its last sighting, and counts the scans since. -/
theorem mem_scanList {scans : List (List AP)}
    (h : ∀ scan ∈ scans, ∀ ap ∈ scan, ap.missCounter = 0) (ap : AP) :
    ap ∈ scanList scans ↔ ap.missCounter < 3 ∧
      ((recent scans).findIdx fun scan => ap.bssid ∈ scan.map AP.bssid) = ap.missCounter ∧
      findBssidInList ap.bssid scans.flatten.reverse = some { ap with missCounter := 0 } := by
  induction scans using List.reverseRecOn generalizing ap with
  | nil => simp [scanList, findBssidInList]
  | append_singleton scans scan ih =>
    have hlist := ih fun scan hscan => h scan (List.mem_append_left _ hscan)
    have hscan := h scan (by simp)
    rw [scanList_append, updateScanApLists]
    split_ifs with hempty
    · simpa [hempty, recent] using hlist ap
    · have hrecent : recent (scans ++ [scan]) = scan :: recent scans := by
        simp [recent, List.filter_append, hempty]
      have hflatten : findBssidInList ap.bssid (scans ++ [scan]).flatten.reverse =
          (findBssidInList ap.bssid scan.reverse).or
            (findBssidInList ap.bssid scans.flatten.reverse) := by
        simp [findBssidInList]
      have hseen := isSome_find_reverse ap.bssid scan
      rw [mem_mergeAll hscan ((nodup_scanList scans).sublist (map_bssid_filterMap_age scan _)),
        hrecent, hflatten, List.findIdx_cons, ← hseen]
      cases hsight : findBssidInList ap.bssid scan.reverse with
      | some last =>
        have hmem : ap.bssid ∈ scan.map AP.bssid := of_decide_eq_true (hseen ▸ hsight ▸ rfl)
        have hlast := hscan last (List.mem_reverse.mp (List.mem_of_find?_eq_some hsight))
        cases last
        cases ap
        grind
      | none =>
        have hne : ap.bssid ∉ scan.map AP.bssid := of_decide_eq_false (hseen ▸ hsight ▸ rfl)
        rw [mem_filterMap_age hne, hlist]
        simp only [hne, Option.isSome_none, cond_false, Option.none_or]
        grind

/-- The list after any scans has one entry for each BSSID of the last three scans that found
something, as it was seen last. The next scan keeps the order of the entries, and appends
those that are new. -/
theorem scanList_spec (h : ∀ scan ∈ scans, ∀ ap ∈ scan, ap.missCounter = 0) :
    ((scanList scans).map AP.bssid).Nodup ∧
      (∀ b, b ∈ (scanList scans).map AP.bssid ↔
        ∃ scan ∈ (recent scans).take 3, b ∈ scan.map AP.bssid) ∧
      (∀ ap ∈ scanList scans,
        findBssidInList ap.bssid scans.flatten.reverse = some { ap with missCounter := 0 }) ∧
      ∀ scan, ∃ kept added,
        (updateScanApLists (scanList scans) scan).map AP.bssid = kept ++ added ∧
        kept.Sublist ((scanList scans).map AP.bssid) ∧
        ∀ b ∈ added, b ∉ (scanList scans).map AP.bssid := by
  have hnodup := nodup_scanList scans
  refine ⟨hnodup, fun b => ?_, fun ap hap => ?_, fun scan => ?_⟩
  · have hidx : ∀ l : List (List AP), (l.findIdx fun scan => b ∈ scan.map AP.bssid) < l.length ↔
        ∃ scan ∈ l, b ∈ scan.map AP.bssid := by simp [List.findIdx_lt_length]
    have hseen : (findBssidInList b scans.flatten.reverse).isSome ↔
        ∃ scan ∈ recent scans, b ∈ scan.map AP.bssid := by
      rw [isSome_find_reverse, decide_eq_true_iff]
      grind [recent]
    rw [← hidx, List.findIdx_take, List.length_take, List.mem_map]
    rw [← hidx] at hseen
    constructor
    · rintro ⟨ap, hap, rfl⟩
      obtain ⟨hmiss, hcount, hlast⟩ := (mem_scanList h ap).mp hap
      rw [hlast] at hseen
      have hlength := hseen.mp rfl
      omega
    · intro hlt
      obtain ⟨last, hlast⟩ := Option.isSome_iff_exists.mp (hseen.mpr (by omega))
      obtain rfl : last.bssid = b := by simpa using List.find?_some hlast
      obtain ⟨scan, hscan, hmem⟩ :=
        List.mem_flatten.mp (List.mem_reverse.mp (List.mem_of_find?_eq_some hlast))
      refine ⟨{ last with
        missCounter := (recent scans).findIdx fun scan => last.bssid ∈ scan.map AP.bssid },
        (mem_scanList h _).mpr ⟨by dsimp only; omega, rfl, ?_⟩, rfl⟩
      rw [hlast, ← h scan hscan last hmem]
  · exact ((mem_scanList h ap).mp hap).2.2
  · by_cases hempty : scan = []
    · exact ⟨_, [], by simp [updateScanApLists, hempty], List.Sublist.refl _, by simp⟩
    · obtain ⟨added, hadded, hall, hscan⟩ :=
        map_bssid_mergeAll scan (hnodup.sublist (map_bssid_filterMap_age scan _))
      refine ⟨_, added, by rw [updateScanApLists, if_neg hempty, hadded],
        map_bssid_filterMap_age scan _, fun b hb hold => ?_⟩
      -- what the scan has found again has not been removed
      obtain ⟨ap, hap, rfl⟩ := List.mem_map.mp hold
      have hkept : age scan ap = some ap := by
        rw [age, isSome_find, decide_eq_true (hscan _ hb), if_pos rfl]
      exact (List.nodup_append.mp hall).2.2 _ (List.mem_map_of_mem
        (List.mem_filterMap.mpr ⟨ap, hap, hkept⟩)) _ hb rfl

def sighting (last : UInt8) (signal : Int8) : AP :=
  ⟨some "net", 0, #v[0, 0, 0, 0, 0, last], signal, 1, 0⟩

/-- The second one is missed three times, and a scan fails in between. -/
def missedThrice : List (List AP) :=
  [[sighting 1 5, sighting 2 5], [sighting 1 4], [], [sighting 3 9, sighting 1 7], [sighting 3 8]]

theorem scanList_spec_missed :
    (scanList missedThrice).map (fun ap => (ap.bssid.back, ap.missCounter)) = [(1, 1), (3, 0)] ∧
      findBssidInList #v[0, 0, 0, 0, 0, 1] missedThrice.flatten.reverse = some (sighting 1 7) :=
  ⟨by decide +kernel, (scanList_spec missedThrice (by decide +kernel)).2.2.1
    { sighting 1 7 with missCounter := 1 } (by decide +kernel)⟩

end BeepMusic.Wifisetup

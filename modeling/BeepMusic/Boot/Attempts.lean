import Mathlib.Tactic.IntervalCases
import BeepMusic.Boot.Bootcount

/-!
The boot count is a unary counter for both programs: they find the same byte, and
change it only in ways that leave it one. The bits that are left in the nibble tell
how often the primary image has been tried, so it is tried three times at most before
the count is cleared. Whether U-Boot alone keeps to that depends on the contents that it
finds, and can be read off them byte by byte.
-/

namespace BeepMusic.Boot

open Lib List

/-- The attempts that a byte with `k` bits stands for. -/
def attempts (k : ℕ) : ℕ := 3 - (k - 1) % 4

theorem nibble_ones : ∀ k ≤ 8, 0 < k →
    UBoot.nibble (Flash.ones k) = Flash.ones (4 - attempts k) := by decide

theorem attempts_le (k : ℕ) : attempts k ≤ 3 := Nat.sub_le _ _

/-! ### U-Boot -/

/-- The byte in use stands behind bytes that are zero, and its nibble in use tells of `c`
attempts. What is in its other nibble and behind it does not matter to U-Boot. -/
structure InUse (area : List UInt8) (zeros : ℕ) (byte : UInt8) (rest : List UInt8) (c : ℕ) :
    Prop where
  eq : area = List.replicate zeros 0 ++ byte :: rest
  count : UBoot.nibble byte = Flash.ones (4 - c)
  le : c ≤ 3

namespace InUse

variable {area rest : List UInt8} {zeros c : ℕ} {byte : UInt8}

theorem of_unary {k n : ℕ} (h : Unary area zeros k n) :
    InUse area zeros (Flash.ones k) (List.replicate n 0xff) (attempts k) :=
  ⟨h.eq, nibble_ones k h.le h.pos, attempts_le k⟩

variable (h : InUse area zeros byte rest c)
include h

theorem ne_zero : byte ≠ 0 := by
  rintro rfl
  have hones : ∀ c ≤ 3, UBoot.nibble 0 ≠ Flash.ones (4 - c) := by decide
  exact hones c h.le h.count

theorem firstNonzero_drop {start : ℕ} (hstart : start ≤ zeros) :
    Flash.firstNonzero (area.drop start) start = some (zeros, byte) := by
  rw [h.eq, drop_append_of_le_length (by simpa using hstart), drop_replicate,
    Flash.firstNonzero_zeros _ h.ne_zero, Nat.add_sub_cancel' hstart]

theorem getD : area.getD zeros 0 = byte := by
  rw [h.eq]
  simp

end InUse

namespace UBoot

variable {layout : Layout} {u : UBoot} {zeros c : ℕ} {byte : UInt8} {rest : List UInt8}

/-- `get_bootcount` finds the byte that is in use and changes nothing. -/
theorem getBootcount_eq (h : InUse u.area zeros byte rest c)
    (hoffset : u.bootcountOffset.getD 0 ≤ zeros) :
    u.getBootcount layout = ((c : ℤ), { u with bootcountOffset := some zeros }) := by
  simp only [getBootcount, h.firstNonzero_drop hoffset, h.count]
  have hle := h.le
  interval_cases c <;> rfl

theorem setBootcount_eq {v : UInt8} (hoffset : u.bootcountOffset = some zeros)
    (hsize : zeros < layout.bootcountSize) :
    u.setBootcount layout v =
      { u with
        area := Flash.program u.area zeros v
        writes := u.writes ++ [⟨u.area.getD zeros 0, v⟩] } := by
  simp only [setBootcount, hoffset]
  rw [if_neg (by omega)]

/-- What `inc_bootcount` makes of the byte. -/
def lowered (v : UInt8) : UInt8 :=
  if v &&& 0xf0 ≠ 0 then ((v >>> 5) <<< 4) ||| 0xf else v >>> 1

theorem lowered_ones : ∀ k ≤ 8, 0 < k → attempts k < 3 →
    lowered (Flash.ones k) = Flash.ones (k - 1) := by decide

/-- Another attempt is counted in the nibble, and this is not yet the last one. -/
theorem nibble_lowered : ∀ byte : UInt8, ∀ c < 3, nibble byte = Flash.ones (4 - c) →
    nibble (byte &&& lowered byte) = Flash.ones (4 - (c + 1)) ∧ byte ≠ 0x1f ∧ byte ≠ 0x01 :=
  forall_byte (by decide +kernel)

/-- `inc_bootcount` programs a byte in which it does not have to stop. -/
theorem incBootcount_eq (h : InUse u.area zeros byte rest c) (hhigh : byte ≠ 0x1f)
    (hlow : byte ≠ 0x01) (hoffset : u.bootcountOffset.getD 0 ≤ zeros)
    (hsize : zeros < layout.bootcountSize) :
    u.incBootcount layout =
      { area := Flash.program u.area zeros (lowered byte)
        writes := u.writes ++ [⟨byte, lowered byte⟩]
        bootcountOffset := some zeros } := by
  have hset : ∀ v, UBoot.setBootcount layout ⟨u.area, u.writes, some zeros⟩ v =
      ⟨Flash.program u.area zeros v, u.writes ++ [⟨byte, v⟩], some zeros⟩ := by
    intro v
    rw [setBootcount_eq rfl hsize, h.getD]
  have hnonneg : ¬ ((c : ℤ) < 0) := by omega
  simp only [incBootcount, getBootcount_eq h hoffset, Option.getD_some, h.getD, hhigh, hlow, hset,
    if_neg hnonneg, if_false, lowered]
  split_ifs <;> rfl

end UBoot

namespace InUse

variable {layout : Layout} {s : Board} {zeros c : ℕ} {byte : UInt8} {rest : List UInt8}
  {i : UBoot.BootInput}

variable (h : InUse s.area zeros byte rest c)
include h

theorem getBootcount :
    UBoot.getBootcount layout ⟨s.area, s.writes, none⟩ =
      ((c : ℤ), ⟨s.area, s.writes, some zeros⟩) :=
  UBoot.getBootcount_eq h (Nat.zero_le zeros)

/-- A boot that counts another attempt, and begins with the primary image. -/
theorem boot_primary (hsize : zeros < layout.bootcountSize) (hheld : i.setupHeld = false)
    (hfact : i.factTest ≠ some false) (hlt : c < 3) :
    ∃ tried : List Image, tried.count .primary = 1 ∧
      s.boot layout i =
        { s with
          area := Flash.program s.area zeros (UBoot.lowered byte)
          writes := s.writes ++ [⟨byte, UBoot.lowered byte⟩]
          boots := s.boots ++ [tried] } := by
  have hget : UBoot.getBootcount layout _ = _ := h.getBootcount
  obtain ⟨-, hhigh, hlow⟩ := UBoot.nibble_lowered byte c hlt h.count
  have hinc := UBoot.incBootcount_eq (u := ⟨s.area, s.writes, some zeros⟩) h hhigh hlow
    (Nat.le_refl zeros) hsize
  have hint : (c : ℤ) < 3 := by omega
  cases hprimary : i.primaryBoots with
  | true =>
    simp [Board.boot, UBoot.doBootb, hget, hfact, hheld, maxBootcount, hint, hprimary, hinc]
  | false =>
    simp [Board.boot, UBoot.doBootb, hget, hfact, hheld, maxBootcount, hint, hprimary, hinc]

/-- With three attempts counted, there is only the recovery image. -/
theorem boot_recovery (hfact : i.factTest ≠ some false) (hge : ¬ c < 3) :
    s.boot layout i = { s with boots := s.boots ++ [[.recovery]] } := by
  have hget : UBoot.getBootcount layout _ = _ := h.getBootcount
  have hint : ¬ (c : ℤ) < 3 := by omega
  simp [Board.boot, UBoot.doBootb, hget, hfact, maxBootcount, hint]

theorem boot_aborted (hfact : i.factTest = some false) : s.boot layout i = s := by
  simp [Board.boot, UBoot.doBootb, h.getBootcount, hfact]

end InUse

/-! ### Linux -/

/-- The byte that `clear_bootcount` seeks to. -/
def clearedByte (pos : ℕ) (a b c d : UInt8) : ℕ × UInt8 :=
  (pos - 1 - (firstByte a b c d).1 / 8, (firstByte a b c d).2)

/-- Linux finds the byte that U-Boot finds. -/
theorem readWords_eq_firstNonzero (bytes : List UInt8) (pos : ℕ) (h : 4 ∣ bytes.length) :
    ((readWords bytes pos).map fun w => clearedByte w.1 w.2.1 w.2.2.1 w.2.2.2.1 w.2.2.2.2) =
      Flash.firstNonzero bytes pos := by
  fun_induction readWords bytes pos with
  | case1 a b c d rest pos hzero ih =>
    obtain ⟨rfl, rfl, rfl, rfl⟩ := hzero
    have hrest : 4 ∣ rest.length := by
      simp only [length_cons] at h
      omega
    rw [ih hrest]
    simp [Flash.firstNonzero]
  | case2 a b c d rest pos hzero =>
    simp only [Option.map_some, clearedByte, firstByte, Flash.firstNonzero]
    by_cases ha : a = 0
    · by_cases hb : b = 0
      · by_cases hc : c = 0
        · have hd : d ≠ 0 := fun hd => hzero ⟨ha, hb, hc, hd⟩
          simp [ha, hb, hc, hd]
        · simp [ha, hb, hc]
      · simp [ha, hb]
    · simp [ha]
  | case3 bytes pos hshort =>
    obtain _ | ⟨a, _ | ⟨b, _ | ⟨c, _ | ⟨d, rest⟩⟩⟩⟩ := bytes
    · rfl
    · exact absurd h (show ¬ 4 ∣ 1 by decide)
    · exact absurd h (show ¬ 4 ∣ 2 by decide)
    · exact absurd h (show ¬ 4 ∣ 3 by decide)
    · exact absurd rfl (hshort a b c d rest)

namespace Board

variable {layout : Layout} {s : Board} {zeros k rest : ℕ}

/-- What `clear_bootcount` leaves of the byte: the other nibble, or nothing. -/
theorem clear_ones : ∀ k ≤ 8, 0 < k →
    (if Flash.ones k &&& 0xf0 ≠ 0 then (0x0f : UInt8) else 0x00) =
      Flash.ones (if 4 < k then 4 else 0) ∧
    (UBoot.nibble (Flash.ones k) = 0x0f ↔ attempts k = 0) := by decide

theorem clearBootcount_eq {i : ClearInput} (h : Unary s.area zeros k rest)
    (hsize : s.area.length = layout.bootcountSize) (hopened : i.opened = true) :
    s.clearBootcount layout i =
      if attempts k = 0 then (.ok, s)
      else if zeros = layout.bootcountSize - 1 then s.resetBootcount layout i.malloc
      else
        (.ok, { s with
          area := Flash.program s.area zeros (Flash.ones (if 4 < k then 4 else 0))
          writes := s.writes ++ [⟨Flash.ones k, Flash.ones (if 4 < k then 4 else 0)⟩] }) := by
  have hfind := readWords_eq_firstNonzero s.area 0 (hsize ▸ layout.words)
  rw [h.firstNonzero_eq, Nat.zero_add] at hfind
  obtain ⟨⟨pos, a, b, c, d⟩, hread, hbyte⟩ := Option.map_eq_some_iff.mp hfind
  obtain ⟨hoffset, hvalue⟩ := Prod.mk.inj hbyte
  obtain ⟨hclear, hnibble⟩ := clear_ones k h.le h.pos
  simp only [clearBootcount, hopened, hread]
  simp only [hvalue, hoffset, hclear, hnibble, h.getD, Bool.true_eq_false, if_false]

end Board

/-! ### Whole runs -/

/-- The primary image was tried once in each of the first three boots, and never
again. -/
def PrimaryFirst (boots : List (List Image)) : Prop :=
  boots.map (fun tried => tried.count .primary) =
    List.replicate (min boots.length 3) 1 ++ List.replicate (boots.length - 3) 0

theorem PrimaryFirst.append {boots : List (List Image)} {tried : List Image}
    (h : PrimaryFirst boots)
    (htried : tried.count .primary = if boots.length < 3 then 1 else 0) :
    PrimaryFirst (boots ++ [tried]) := by
  rw [PrimaryFirst, map_append, h, length_append, map_singleton, htried]
  split_ifs with hlt
  · have hmin : min (boots.length + 1) 3 = min boots.length 3 + 1 := by omega
    have hsub : boots.length + 1 - 3 = 0 := by omega
    have hsub' : boots.length - 3 = 0 := by omega
    simp [hmin, hsub, hsub', replicate_succ']
  · have hmin : min (boots.length + 1) 3 = min boots.length 3 := by omega
    have hsub : boots.length + 1 - 3 = boots.length - 3 + 1 := by omega
    simp [hmin, hsub, replicate_succ', append_assoc]

/-- The area is a unary counter that agrees with the boots since the last clear, and
nothing was programmed that does not only clear bits. -/
structure Counting (layout : Layout) (s : Board) (zeros k rest : ℕ) : Prop where
  unary : Unary s.area zeros k rest
  size : s.area.length = layout.bootcountSize
  count : attempts k = min s.boots.length 3
  primary : PrimaryFirst s.boots
  writes : ∀ w ∈ s.writes, w.ClearsOnly

namespace Counting

variable {layout : Layout} {s : Board} {zeros k rest : ℕ}

variable (h : Counting layout s zeros k rest)
include h

theorem zeros_lt : zeros < layout.bootcountSize := by
  have hlength := h.unary.length
  have hsize := h.size
  omega

theorem writes_append {j : ℕ} (hle : j ≤ k) :
    ∀ w ∈ s.writes ++ [⟨Flash.ones k, Flash.ones j⟩], w.ClearsOnly := by
  intro w hw
  rcases mem_append.mp hw with hw | hw
  · exact h.writes w hw
  · obtain rfl := mem_singleton.mp hw
    exact Flash.ones_and_ones k h.unary.le j hle

theorem inUse : InUse s.area zeros (Flash.ones k) (List.replicate rest 0xff) (attempts k) :=
  .of_unary h.unary

theorem boot {i : UBoot.BootInput} (hheld : i.setupHeld = false) :
    ∃ k', Counting layout (s.boot layout i) zeros k' rest := by
  have hcount := h.count
  have hpos := h.unary.pos
  by_cases hfact : i.factTest = some false
  · exact ⟨k, by rwa [h.inUse.boot_aborted hfact]⟩
  by_cases hlt : attempts k < 3
  · obtain ⟨tried, htried, hboot⟩ := h.inUse.boot_primary h.zeros_lt hheld hfact hlt
    rw [UBoot.lowered_ones k h.unary.le hpos hlt] at hboot
    have hk : 0 < k - 1 := by
      rcases Nat.lt_or_ge 1 k with hone | hone
      · omega
      · obtain rfl : k = 1 := by omega
        exact absurd hlt (by decide)
    refine ⟨k - 1, ?_⟩
    rw [hboot]
    exact
      { unary := h.unary.lower hk (Nat.sub_le k 1)
        size := (Flash.length_program _ _ _).trans h.size
        count := by
          rw [length_append, length_singleton]
          simp only [attempts] at hcount hlt ⊢
          omega
        primary := h.primary.append (by rw [htried, if_pos (by omega)])
        writes := h.writes_append (Nat.sub_le k 1) }
  · refine ⟨k, ?_⟩
    rw [h.inUse.boot_recovery hfact hlt]
    exact
      { unary := h.unary
        size := h.size
        count := by
          rw [length_append, length_singleton]
          omega
        primary := h.primary.append (by rw [if_neg (by omega)]; rfl)
        writes := h.writes }

theorem cleared (hk : attempts k = 0) : Counting layout { s with boots := [] } zeros k rest :=
  { h with count := hk, primary := rfl }

/-- Erasing the sector, if there is memory for the environment, which is written back. -/
theorem reset (malloc : Bool) :
    ∃ zeros' k' rest', Counting layout
      (match s.resetBootcount layout malloc with
        | (code, s) => if code = .ok then { s with boots := [] } else s) zeros' k' rest' := by
  cases malloc with
  | false => exact ⟨zeros, k, rest, h⟩
  | true =>
    refine ⟨0, 8, layout.bootcountSize - 1, ?_⟩
    exact
      { unary := .erased layout.pos
        size := length_replicate
        count := rfl
        primary := rfl
        writes := by
          intro w hw
          rcases mem_append.mp hw with hw | hw
          · exact h.writes w hw
          · obtain ⟨b, -, rfl⟩ := List.mem_map.mp hw
            exact Flash.erased_and b }

theorem clear (i : ClearInput) :
    ∃ zeros' k' rest', Counting layout (s.clear layout i) zeros' k' rest' := by
  cases hopened : i.opened with
  | false =>
    have hclear : s.clear layout i = s := by
      simp [Board.clear, Board.clearBootcount, hopened]
    exact ⟨zeros, k, rest, by rwa [hclear]⟩
  | true =>
    have hclear := Board.clearBootcount_eq h.unary h.size hopened
    split_ifs at hclear with hzero hlast
    · refine ⟨zeros, k, rest, ?_⟩
      rw [Board.clear, hclear]
      exact h.cleared hzero
    · obtain ⟨zeros', k', rest', hreset⟩ := h.reset i.malloc
      refine ⟨zeros', k', rest', ?_⟩
      rw [Board.clear, hclear]
      exact hreset
    · -- the other nibble of the byte is next
      refine ⟨zeros, 4, rest, ?_⟩
      rw [Board.clear, hclear]
      exact
        { unary := h.unary.lower (by decide) (by omega)
          size := (Flash.length_program _ _ _).trans h.size
          count := rfl
          primary := rfl
          writes := h.writes_append (by omega) }
    · -- the next byte is next, and there is one
      have hlength := h.unary.length
      have hsize := h.size
      obtain ⟨rest, rfl⟩ : ∃ n, rest = n + 1 := ⟨rest - 1, by omega⟩
      refine ⟨zeros + 1, 8, rest, ?_⟩
      rw [Board.clear, hclear]
      exact
        { unary := h.unary.next
          size := (Flash.length_program _ _ _).trans h.size
          count := rfl
          primary := rfl
          writes := h.writes_append (Nat.zero_le k) }

end Counting

/-- The setup button is not held during a boot. -/
def SetupReleased (_ : Board) : BoardEvent → Prop
  | .boot i => i.setupHeld = false
  | .clear _ => True

instance (s : Board) (e : BoardEvent) : Decidable (SetupReleased s e) :=
  match e with
  | .boot _ => inferInstanceAs (Decidable (_ = _))
  | .clear _ => inferInstanceAs (Decidable True)

theorem Counting.of_reachable {layout : Layout} {env : List UInt8} {s : Board}
    (h : (board layout env).ReachableUnder SetupReleased s) :
    ∃ zeros k rest, Counting layout s zeros k rest := by
  refine h.invariant (I := fun s => ∃ zeros k rest, Counting layout s zeros k rest)
    ⟨0, 8, layout.bootcountSize - 1, ?_⟩ ?_
  · exact
      { unary := .erased layout.pos
        size := length_replicate
        count := rfl
        primary := rfl
        writes := by simp [board] }
  · rintro s e s' ⟨zeros, k, rest, hs⟩ hok hstep
    cases e with try cases hstep
    | boot i =>
      obtain ⟨k', hboot⟩ := hs.boot hok
      exact ⟨zeros, k', rest, hboot⟩
    | clear i =>
      exact hs.clear i

variable (layout : Layout)

/-- From an erased area on, and with the setup button released, the area is always a
unary counter, bits are only ever cleared but for the erase of the sector, and since
the last clear the primary image was tried in the first three boots and in no other. -/
theorem bootcount_protocol (env : List UInt8) (s : Board)
    (h : (board layout env).ReachableUnder SetupReleased s) :
    (∃ zeros k rest, 0 < k ∧ k ≤ 8 ∧
      s.area = List.replicate zeros 0 ++ Flash.ones k :: List.replicate rest 0xff) ∧
    (∀ w ∈ s.writes, w.ClearsOnly) ∧ PrimaryFirst s.boots ∧
    s.boots.flatten.count .primary = min s.boots.length 3 := by
  obtain ⟨zeros, k, rest, hs⟩ := Counting.of_reachable h
  refine ⟨⟨zeros, k, rest, hs.unary.pos, hs.unary.le, hs.unary.eq⟩, hs.writes, hs.primary, ?_⟩
  have hsum := congrArg sum hs.primary
  rw [count_flatten, hsum]
  simp

/-- Five boots that Linux does not confirm. -/
def unconfirmedBoots : List BoardEvent :=
  .clear ⟨true, true⟩ :: List.replicate 5 (.boot ⟨false, none, true⟩)

theorem bootcount_protocol_five_boots :
    ∃ s, (board deviceLayout [1]).ReachableUnder SetupReleased s ∧
      s.area.take 2 = [0x1f, 0xff] ∧ s.boots.length = 5 ∧
      s.boots.flatten.count .primary = 3 := by
  obtain ⟨s, -, hreach, harea, hlength⟩ :=
    System.exists_reachableUnder (board deviceLayout [1]) SetupReleased unconfirmedBoots
      (fun s => s.area.take 2 = [0x1f, 0xff] ∧ s.boots.length = 5)
      (by decide +kernel) (by decide +kernel)
  have hcount := (bootcount_protocol _ _ s hreach).2.2.2
  rw [hlength] at hcount
  exact ⟨s, hreach, harea, hlength, hcount⟩

/-! ### Other contents of the area -/

/-- How often the primary image was tried. -/
def Board.primaries (s : Board) : ℕ := s.boots.flatten.count .primary

/-- Consecutive boots of a device, with these contents of the area. -/
def bootAll (env area : List UInt8) (inputs : List UBoot.BootInput) : Board :=
  inputs.foldl (Board.boot layout) ⟨env, area, [], []⟩

/-- In an area that is used up nothing is counted. -/
theorem Board.boot_usedUp {s : Board} {size : ℕ} (h : s.area = List.replicate size 0) :
    s.boot layout ⟨false, none, true⟩ = { s with boots := s.boots ++ [[.primary]] } := by
  have hget : UBoot.getBootcount layout ⟨s.area, s.writes, none⟩ =
      (-1, ⟨s.area, s.writes, none⟩) := by
    simp [UBoot.getBootcount, h, Flash.firstNonzero_eq_none]
  simp [Board.boot, UBoot.doBootb, UBoot.incBootcount, hget, maxBootcount]

theorem Board.primaries_usedUp (n : ℕ) {s : Board} {size : ℕ} (h : s.area = List.replicate size 0) :
    ((List.replicate n ⟨false, none, true⟩).foldl (Board.boot layout) s).primaries =
      s.primaries + n := by
  induction n generalizing s with
  | zero => rfl
  | succ n ih =>
    have hnext := @ih { s with boots := s.boots ++ [[.primary]] } h
    rw [replicate_succ, foldl_cons, Board.boot_usedUp layout h, hnext]
    simp [Board.primaries, Nat.add_assoc, Nat.add_comm 1]

/-- The attempts that a byte tells of, if its nibble in use is a count. -/
def counted (byte : UInt8) : Option ℕ := [0xf, 0x7, 0x3, 0x1].idxOf? (UBoot.nibble byte)

/-- Whether `byte` and what is `behind` it leave at most `n` attempts when a boot begins. A byte
that is no count is cleared; the boot is then an attempt and reads on, unless it ends with the
factory test. -/
def LimitsFrom (behind : Bool → ℕ → Prop) (byte : UInt8) (n : ℕ) : Prop :=
  match counted byte with
  | some c => 3 ≤ n + c
  | none => behind false n ∧ (byte ≠ 0 → 0 < n ∧ behind true (n - 1))

/-- Whether the bytes leave at most `n` attempts: to the boots from the next one on, or, with
`true`, to those after a boot that has cleared a byte and reads on in `inc_bootcount`. That
counts to three, but in a byte that has three attempts in its first nibble, and not all bits of
the second one, it clears the first. -/
def Limits : List UInt8 → Bool → ℕ → Prop
  | [], _, _ => False
  | byte :: bytes, false, n => LimitsFrom (Limits bytes) byte n
  | byte :: bytes, true, n =>
    match counted byte with
    | none => Limits bytes (byte = 0) n
    | some c =>
      if c < 3 then 2 ≤ n + c
      else byte = 0x1f ∨ byte = 0x01 ∨ LimitsFrom (Limits bytes) (byte &&& 0x0f) n

section

variable {layout} {s : Board} {zeros c n : ℕ} {byte : UInt8} {bytes : List UInt8}

theorem counted_eq_some_iff :
    counted byte = some c ↔ UBoot.nibble byte = Flash.ones (4 - c) ∧ c ≤ 3 := by
  have hones : Flash.ones 4 = 0xf ∧ Flash.ones 3 = 0x7 ∧ Flash.ones 2 = 0x3 ∧
      Flash.ones 1 = 0x1 := by decide
  obtain ⟨h4, h3, h2, h1⟩ := hones
  obtain _ | _ | _ | _ | c := c <;>
    simp [counted, idxOf?_cons, h4, h3, h2, h1, eq_comm (b := UBoot.nibble byte)] <;> grind

/-- A byte that is no count is cleared. -/
theorem UBoot.getBootcount_invalid (bytes : List UInt8) (hcount : counted byte = none)
    (hbyte : byte ≠ 0) (hsize : zeros < layout.bootcountSize) (writes : List FlashWrite) :
    UBoot.getBootcount layout ⟨List.replicate zeros 0 ++ byte :: bytes, writes, none⟩ =
      (-2, ⟨List.replicate (zeros + 1) 0 ++ bytes, writes ++ [⟨byte, 0⟩], none⟩) := by
  have hfirst := Flash.firstNonzero_zeros zeros hbyte bytes 0
  have hset (u : UBoot) (hu : u.bootcountOffset = some zeros) := setBootcount_eq (v := 0) hu hsize
  simp only [counted, idxOf?_eq_none_iff, mem_cons, not_mem_nil, or_false, not_or] at hcount
  obtain ⟨h0, h1, h2, h3⟩ := hcount
  simp [getBootcount, hfirst, h0, h1, h2, h3, hset, Flash.program, replicate_succ']

/-- Whatever the next boots are, at most `n` of them try the primary image. -/
def Board.Within (layout : Layout) (s : Board) (n : ℕ) : Prop :=
  ∀ inputs : List UBoot.BootInput, (∀ i ∈ inputs, i.setupHeld = false) →
    (inputs.foldl (Board.boot layout) s).primaries ≤ s.primaries + n

theorem Board.Within.boot {i : UBoot.BootInput} (h : s.Within layout n)
    (hheld : i.setupHeld = false) {d m : ℕ}
    (hd : (s.boot layout i).primaries = s.primaries + d) (hn : n = m + d) :
    (s.boot layout i).Within layout m := by
  intro inputs hinputs
  have hle := h (i :: inputs) (forall_mem_cons.mpr ⟨hheld, hinputs⟩)
  rw [foldl_cons] at hle
  omega

theorem Board.within_of_boot
    (h : ∀ i : UBoot.BootInput, i.setupHeld = false →
      ∃ d m, (s.boot layout i).primaries = s.primaries + d ∧ n = m + d ∧
        (s.boot layout i).Within layout m) :
    s.Within layout n := by
  rintro (_ | ⟨i, inputs⟩) hinputs
  · exact Nat.le_add_right _ _
  obtain ⟨hheld, hinputs⟩ := forall_mem_cons.mp hinputs
  obtain ⟨d, m, hd, hn, hwithin⟩ := h i hheld
  have hle := hwithin inputs hinputs
  rw [foldl_cons]
  omega

theorem InUse.boot (h : InUse s.area zeros byte bytes c) (hsize : zeros < layout.bootcountSize)
    {i : UBoot.BootInput} (hheld : i.setupHeld = false) :
    ∃ byte' c', InUse (s.boot layout i).area zeros byte' bytes c' ∧
      (s.boot layout i).primaries + c = s.primaries + c' ∧
      (i.factTest ≠ some false → c' = min (c + 1) 3) := by
  by_cases hfact : i.factTest = some false
  · rw [h.boot_aborted hfact]
    exact ⟨byte, c, h, rfl, fun hnot => absurd hfact hnot⟩
  by_cases hlt : c < 3
  · obtain ⟨tried, htried, hboot⟩ := h.boot_primary hsize hheld hfact hlt
    rw [hboot]
    refine ⟨byte &&& UBoot.lowered byte, c + 1,
      ⟨?_, (UBoot.nibble_lowered byte c hlt h.count).1, hlt⟩, ?_, fun _ => by omega⟩
    · rw [Flash.program, h.getD, h.eq]
      simp
    · simp only [Board.primaries, flatten_append, flatten_singleton, count_append,
        htried]
      omega
  · rw [h.boot_recovery hfact hlt]
    have hle := h.le
    refine ⟨byte, c, h, ?_, fun _ => by omega⟩
    simp only [Board.primaries, flatten_append, flatten_singleton, count_append]
    rfl

theorem InUse.primaries_le (h : InUse s.area zeros byte bytes c)
    (hsize : zeros < layout.bootcountSize) {inputs : List UBoot.BootInput}
    (hheld : ∀ i ∈ inputs, i.setupHeld = false) :
    (inputs.foldl (Board.boot layout) s).primaries + c ≤ s.primaries + 3 := by
  induction inputs generalizing s byte c with
  | nil => exact Nat.add_le_add_left h.le _
  | cons i inputs ih =>
    obtain ⟨byte', c', hnext, hcount, -⟩ := h.boot hsize (hheld i mem_cons_self)
    have hrest := ih hnext fun j hj => hheld j (mem_cons_of_mem i hj)
    rw [foldl_cons]
    omega

/-- With a count in use, the attempts that are left are made in three boots. -/
theorem InUse.within_iff (h : InUse s.area zeros byte bytes c)
    (hsize : zeros < layout.bootcountSize) : s.Within layout n ↔ 3 ≤ n + c := by
  constructor
  · intro hwithin
    have hle := hwithin (List.replicate 3 ⟨false, none, true⟩) (by simp)
    have hfact : (none : Option Bool) ≠ some false := by decide
    obtain ⟨_, c₁, h₁, hcount₁, hc₁⟩ := h.boot hsize (i := ⟨false, none, true⟩) rfl
    obtain ⟨_, c₂, h₂, hcount₂, hc₂⟩ := h₁.boot hsize (i := ⟨false, none, true⟩) rfl
    obtain ⟨_, c₃, h₃, hcount₃, hc₃⟩ := h₂.boot hsize (i := ⟨false, none, true⟩) rfl
    have := hc₁ hfact
    have := hc₂ hfact
    have := hc₃ hfact
    simp only [replicate_succ, replicate_zero, foldl_cons, foldl_nil] at hle
    omega
  · intro hn inputs hheld
    have hle := h.primaries_le hsize hheld
    omega

/-- A boot that finds a byte that is no count. -/
theorem Board.boot_invalid (harea : s.area = List.replicate zeros 0 ++ byte :: bytes)
    (hcount : counted byte = none) (hbyte : byte ≠ 0) (hsize : zeros < layout.bootcountSize)
    {i : UBoot.BootInput} (hheld : i.setupHeld = false) :
    if i.factTest = some false then
      (s.boot layout i).area = List.replicate (zeros + 1) 0 ++ bytes ∧
        (s.boot layout i).primaries = s.primaries
    else
      ∃ writes, (s.boot layout i).area =
          (UBoot.incBootcount layout ⟨List.replicate (zeros + 1) 0 ++ bytes, writes, none⟩).area ∧
        (s.boot layout i).primaries = s.primaries + 1 := by
  have hget := UBoot.getBootcount_invalid bytes hcount hbyte hsize s.writes
  rw [← harea] at hget
  split_ifs with hfact
  · simp [Board.boot, UBoot.doBootb, hget, hfact, Board.primaries]
  · refine ⟨s.writes ++ [⟨byte, 0⟩], ?_⟩
    cases hprimary : i.primaryBoots <;>
      simp [Board.boot, UBoot.doBootb, hget, hfact, Board.primaries, hheld, maxBootcount, hprimary]

/-- After three attempts, only the second nibble is left. -/
theorem and_lowered_of_three : ∀ byte : UInt8, UBoot.nibble byte = Flash.ones (4 - 3) →
    byte ≠ 0x01 → byte &&& UBoot.lowered byte = byte &&& 0x0f :=
  forall_byte (by decide +kernel)

theorem InUse.area_incBootcount (writes : List FlashWrite)
    (h : InUse (List.replicate zeros 0 ++ byte :: bytes) zeros byte bytes c)
    (hsize : zeros < layout.bootcountSize) :
    (UBoot.incBootcount layout ⟨List.replicate zeros 0 ++ byte :: bytes, writes, none⟩).area =
      List.replicate zeros 0 ++
        (if byte = 0x1f ∨ byte = 0x01 then byte else byte &&& UBoot.lowered byte) :: bytes := by
  have hget : UBoot.getBootcount layout ⟨_, writes, none⟩ = _ :=
    UBoot.getBootcount_eq h (Nat.zero_le zeros)
  by_cases hstop : byte = 0x1f ∨ byte = 0x01
  · rw [if_pos hstop]
    have hnonneg : ¬ (c : ℤ) < 0 := by omega
    have hmask : (0x1f : UInt8) &&& 0xf0 ≠ 0 ∧ (0x01 : UInt8) &&& 0xf0 = 0 := by decide
    rcases hstop with rfl | rfl <;> simp [UBoot.incBootcount, hget, hnonneg, hmask]
  · rw [if_neg hstop]
    obtain ⟨hhigh, hlow⟩ := not_or.mp hstop
    rw [UBoot.incBootcount_eq h hhigh hlow (Nat.zero_le zeros) hsize]
    simp [Flash.program]

/-- `limits bytes second n` is what `s.Within layout n` comes to when the area is `bytes`, behind
bytes that are zero. -/
structure Decides (layout : Layout) (zeros : ℕ) (bytes : List UInt8) : Prop where
  next : ∀ (s : Board) (n : ℕ), s.area = List.replicate zeros 0 ++ bytes →
    (s.Within layout n ↔ Limits bytes false n)
  second : ∀ (s : Board) (n : ℕ) (writes : List FlashWrite),
    s.area = (UBoot.incBootcount layout ⟨List.replicate zeros 0 ++ bytes, writes, none⟩).area →
      (s.Within layout n ↔ Limits bytes true n)

theorem replicate_append_zero_cons (zeros : ℕ) (bytes : List UInt8) :
    List.replicate zeros 0 ++ 0 :: bytes = List.replicate (zeros + 1) 0 ++ bytes := by
  rw [replicate_succ', append_assoc]
  rfl

theorem Decides.begins (h : Decides layout (zeros + 1) bytes) (hsize : zeros < layout.bootcountSize)
    (harea : s.area = List.replicate zeros 0 ++ byte :: bytes) :
    s.Within layout n ↔ LimitsFrom (Limits bytes) byte n := by
  cases hcount : counted byte with
  | some c =>
    obtain ⟨hnibble, hle⟩ := counted_eq_some_iff.mp hcount
    rw [InUse.within_iff ⟨harea, hnibble, hle⟩ hsize]
    simp [LimitsFrom, hcount]
  | none =>
    simp only [LimitsFrom, hcount]
    by_cases hbyte : byte = 0
    · subst hbyte
      rw [h.next s n (harea.trans (replicate_append_zero_cons zeros bytes))]
      simp
    have hboot := fun i => @Board.boot_invalid layout s zeros byte bytes harea hcount hbyte hsize i
    constructor
    · intro hwithin
      obtain ⟨hnext, haborted⟩ := hboot ⟨false, some false, true⟩ rfl
      obtain ⟨writes, hread, htried⟩ := hboot ⟨false, none, true⟩ rfl
      have hone := hwithin [⟨false, none, true⟩] (by simp)
      have hpos : 0 < n := by
        rw [foldl_cons, foldl_nil] at hone
        omega
      exact ⟨(h.next _ n hnext).mp (hwithin.boot (d := 0) rfl haborted rfl), fun _ =>
        ⟨hpos, (h.second _ _ writes hread).mp (hwithin.boot rfl htried (by omega))⟩⟩
    · rintro ⟨hnext, hread⟩
      obtain ⟨hpos, hsecond⟩ := hread hbyte
      refine Board.within_of_boot fun i hheld => ?_
      have hi := hboot i hheld
      split_ifs at hi with hfact
      · exact ⟨0, n, hi.2, rfl, (h.next _ n hi.1).mpr hnext⟩
      · obtain ⟨writes, harea', hprimaries⟩ := hi
        exact ⟨1, n - 1, hprimaries, by omega, (h.second _ _ writes harea').mpr hsecond⟩

/-- A boot that has cleared a byte finds a count in the next one. -/
theorem Decides.reads_on (h : Decides layout (zeros + 1) bytes)
    (hsize : zeros < layout.bootcountSize) (hcount : counted byte = some c)
    {writes : List FlashWrite} (harea : s.area =
      (UBoot.incBootcount layout ⟨List.replicate zeros 0 ++ byte :: bytes, writes, none⟩).area) :
    s.Within layout n ↔ Limits (byte :: bytes) true n := by
  obtain ⟨hnibble, hle⟩ := counted_eq_some_iff.mp hcount
  rw [InUse.area_incBootcount writes ⟨rfl, hnibble, hle⟩ hsize] at harea
  rw [h.begins hsize harea]
  by_cases hlt : c < 3
  · obtain ⟨hnext, hhigh, hlow⟩ := UBoot.nibble_lowered byte c hlt hnibble
    have hcount' : counted (byte &&& UBoot.lowered byte) = some (c + 1) :=
      counted_eq_some_iff.mpr ⟨hnext, hlt⟩
    simp only [Limits, LimitsFrom, hcount, hcount', hhigh, hlow, or_self, if_false, hlt, if_true]
    omega
  · obtain rfl : c = 3 := by omega
    by_cases hstop : byte = 0x1f ∨ byte = 0x01
    · rw [if_pos hstop]
      simp [Limits, LimitsFrom, hcount, ← or_assoc, hstop]
    · obtain ⟨hhigh, hlow⟩ := not_or.mp hstop
      rw [if_neg hstop, and_lowered_of_three byte hnibble hlow]
      simp [Limits, hcount, hhigh, hlow]

theorem decides (bytes : List UInt8) (hsize : zeros + bytes.length = layout.bootcountSize) :
    Decides layout zeros bytes := by
  induction bytes generalizing zeros with
  | nil =>
    have hnever (s : Board) (n : ℕ) (harea : s.area = List.replicate zeros 0) :
        ¬ s.Within layout n := by
      intro hwithin
      have hle := hwithin (List.replicate (n + 1) ⟨false, none, true⟩) (by simp)
      rw [Board.primaries_usedUp layout (n + 1) harea] at hle
      omega
    refine ⟨fun s n harea => iff_of_false (hnever s n ?_) id, fun s n writes harea =>
      iff_of_false (hnever s n ?_) id⟩
    · simpa using harea
    · rw [harea]
      simp [UBoot.incBootcount, UBoot.getBootcount, Flash.firstNonzero_eq_none]
  | cons byte bytes ih =>
    rw [length_cons] at hsize
    have hzeros : zeros < layout.bootcountSize := by omega
    have hbehind : Decides layout (zeros + 1) bytes := ih (by omega)
    refine ⟨fun s n harea => hbehind.begins hzeros harea, fun s n writes harea => ?_⟩
    cases hcount : counted byte with
    | none =>
      simp only [Limits, hcount]
      by_cases hbyte : byte = 0
      · subst hbyte
        rw [replicate_append_zero_cons] at harea
        simpa using hbehind.second s n writes harea
      · have hget := UBoot.getBootcount_invalid bytes hcount hbyte hzeros writes
        have hinc : s.area = List.replicate (zeros + 1) 0 ++ bytes := by
          rw [harea]
          simp [UBoot.incBootcount, hget]
        simpa [hbyte] using hbehind.next s n hinc
    | some c => exact hbehind.reads_on hzeros hcount harea

end

/-- The primary image is tried three times at most, in whatever boots, exactly when the contents
of the area leave it three attempts at most. -/
theorem recovery_reached_iff (env area : List UInt8) (hsize : area.length = layout.bootcountSize) :
    (∀ inputs : List UBoot.BootInput, (∀ i ∈ inputs, i.setupHeld = false) →
      (bootAll layout env area inputs).primaries ≤ 3) ↔ Limits area false 3 := by
  have h := (decides area (Nat.zero_add _ |>.trans hsize)).next ⟨env, area, [], []⟩ 3 rfl
  rw [← h]
  rfl

/-- One byte that is no count before an erased area. -/
theorem recovery_reached_iff_invalid :
    (bootAll ⟨4, by decide, by decide⟩ [] [5, 0xff, 0xff, 0xff]
      (List.replicate 5 ⟨false, none, true⟩)).primaries ≤ 3 :=
  (recovery_reached_iff ⟨4, by decide, by decide⟩ [] [5, 0xff, 0xff, 0xff] rfl).mpr
    ⟨show 3 ≤ 3 + 0 by decide, fun _ => ⟨by decide, show 2 ≤ 2 + 0 by decide⟩⟩ _ (by simp)

/-- Four boots with an area that is used up: the primary image each time. -/
theorem recovery_missed :
    (bootAll deviceLayout [] (List.replicate 0x8000 0)
      (List.replicate 4 ⟨false, none, true⟩)).primaries = 4 :=
  Board.primaries_usedUp deviceLayout 4 rfl

end BeepMusic.Boot

import BeepMusic.Lib.Hex

/-!
The numbers that `strtoll` reads when it is called with base 0: decimal ones, octal ones
after `0` and hexadecimal ones after `0x`, with white space and a sign in front.
-/

namespace BeepMusic.Lib

open List

/-- White space in the C locale. -/
def isSpace (c : UInt8) : Bool := c == 0x20 || 9 ≤ c && c ≤ 13

def isDigit (base : ℕ) (c : UInt8) : Bool := (hexVal c).any (· < base)

/-- The value of a text of digits. -/
def digitsVal (base : ℕ) (s : Bytes) : ℕ :=
  s.foldl (fun n c => n * base + (hexVal c).getD 0) 0

/-! ### The syntax -/

/-- The numbers without a sign, and their values. -/
inductive Magnitude : Bytes → ℕ → Prop
  | dec (c : UInt8) (ds : Bytes) : c ≠ 0x30 → (∀ d ∈ c :: ds, isDigit 10 d) →
      Magnitude (c :: ds) (digitsVal 10 (c :: ds))
  | oct (ds : Bytes) : (∀ d ∈ ds, isDigit 8 d) → Magnitude (0x30 :: ds) (digitsVal 8 ds)
  | hex (x c : UInt8) (ds : Bytes) : x = 0x78 ∨ x = 0x58 → (∀ d ∈ c :: ds, isDigit 16 d) →
      Magnitude (0x30 :: x :: c :: ds) (digitsVal 16 (c :: ds))

/-- The integer literals, and their values. -/
inductive Literal : Bytes → ℤ → Prop
  | pos (spaces sign s : Bytes) (n : ℕ) : (∀ c ∈ spaces, isSpace c) → sign = [] ∨ sign = [0x2B] →
      Magnitude s n → Literal (spaces ++ (sign ++ s)) n
  | neg (spaces s : Bytes) (n : ℕ) : (∀ c ∈ spaces, isSpace c) → Magnitude s n →
      Literal (spaces ++ 0x2D :: s) (-n)

/-! ### The function -/

/-- The value of the digits in front, and what follows them. -/
def scanDigits (base : ℕ) (s : Bytes) : ℕ × Bytes :=
  (digitsVal base (s.takeWhile (isDigit base)), s.dropWhile (isDigit base))

/-- A number without a sign and what follows it. A `0x` without a digit is a `0`. -/
def scanMagnitude : Bytes → Option (ℕ × Bytes)
  | [] => none
  | c :: rest =>
    if c ≠ 0x30 then if isDigit 10 c then some (scanDigits 10 (c :: rest)) else none
    else match rest with
      | x :: d :: ds =>
        if (x = 0x78 ∨ x = 0x58) ∧ isDigit 16 d then some (scanDigits 16 (d :: ds))
        else some (scanDigits 8 (x :: d :: ds))
      | _ => some (scanDigits 8 rest)

/-- Whether there is a minus sign, and what follows the sign. -/
def scanSign : Bytes → Bool × Bytes
  | [] => (false, [])
  | c :: rest =>
    if c = 0x2D then (true, rest) else if c = 0x2B then (false, rest) else (false, c :: rest)

/-- The number that a text begins with, and what follows it. -/
def scanLiteral (s : Bytes) : Option (ℤ × Bytes) :=
  (scanMagnitude (scanSign (s.dropWhile isSpace)).2).map fun (n, rest) =>
    (if (scanSign (s.dropWhile isSpace)).1 then -n else n, rest)

/-- The value that is returned, whether `errno` is `ERANGE`, and the text at `endptr`. -/
structure Strtoll where
  val : ℤ
  erange : Bool
  endptr : Bytes

def strtoll (s : Bytes) : Strtoll :=
  match scanLiteral s with
  | none => ⟨0, false, s⟩
  | some (v, rest) =>
    ⟨max (-2 ^ 63) (min v (2 ^ 63 - 1)), v < -2 ^ 63 ∨ 2 ^ 63 - 1 < v, rest⟩

/-! ### What it accepts -/

variable {s : Bytes} {n base : ℕ}

theorem scanDigits_eq_iff : scanDigits base s = (n, []) ↔
    (∀ d ∈ s, isDigit base d) ∧ digitsVal base s = n := by
  rw [scanDigits, Prod.mk.injEq, dropWhile_eq_nil_iff, and_comm]
  refine and_congr_right fun h => ?_
  rw [takeWhile_eq_self_iff.mpr h]

theorem scanMagnitude_eq_iff : scanMagnitude s = some (n, []) ↔ Magnitude s n := by
  constructor
  · intro h
    unfold scanMagnitude at h
    split at h
    · cases h
    · split_ifs at h with hzero hdigit
      · obtain ⟨hall, rfl⟩ := scanDigits_eq_iff.mp (Option.some.inj h)
        exact .dec _ _ hzero hall
      · obtain rfl := not_not.mp hzero
        split at h
        · split_ifs at h with hx <;> obtain ⟨hall, rfl⟩ := scanDigits_eq_iff.mp (Option.some.inj h)
          · exact .hex _ _ _ hx.1 hall
          · exact .oct _ hall
        · obtain ⟨hall, rfl⟩ := scanDigits_eq_iff.mp (Option.some.inj h)
          exact .oct _ hall
  · rintro (⟨c, ds, hzero, hall⟩ | ⟨ds, hall⟩ | ⟨x, c, ds, hx, hall⟩)
    · exact ((if_pos hzero).trans (if_pos (hall c mem_cons_self))).trans
        (congrArg some (scanDigits_eq_iff.mpr ⟨hall, rfl⟩))
    · have hscan := scanDigits_eq_iff.mpr ⟨hall, rfl⟩
      match ds with
      | [] | [_] => exact congrArg some hscan
      | x :: d :: ds =>
        have hx : ¬(x = 0x78 ∨ x = 0x58) := by
          rintro (rfl | rfl) <;> exact absurd (hall _ mem_cons_self) (by decide)
        exact (if_neg fun h => hx h.1).trans (congrArg some hscan)
    · exact (if_pos ⟨hx, hall c mem_cons_self⟩).trans
        (congrArg some (scanDigits_eq_iff.mpr ⟨hall, rfl⟩))

/-- A number without a sign begins with a digit. -/
theorem Magnitude.head (h : Magnitude s n) :
    s.dropWhile isSpace = s ∧ scanSign s = (false, s) := by
  have hdigit : ∀ c, isDigit 10 c → isSpace c = false ∧ c ≠ 0x2D ∧ c ≠ 0x2B :=
    forall_byte (by decide +kernel)
  obtain ⟨c, rest, rfl, hc⟩ : ∃ c rest, s = c :: rest ∧ isDigit 10 c := by
    cases h with
    | dec c ds _ hall => exact ⟨c, ds, rfl, hall c mem_cons_self⟩
    | oct => exact ⟨_, _, rfl, by decide⟩
    | hex => exact ⟨_, _, rfl, by decide⟩
  obtain ⟨hspace, hminus, hplus⟩ := hdigit c hc
  exact ⟨dropWhile_cons_of_neg (by simp [hspace]), by simp [scanSign, hminus, hplus]⟩

theorem scanLiteral_eq_iff {v : ℤ} : scanLiteral s = some (v, []) ↔ Literal s v := by
  constructor
  · intro h
    obtain ⟨⟨n, rest⟩, hn, heq⟩ := Option.map_eq_some_iff.mp h
    obtain ⟨rfl, rfl⟩ := Prod.mk.inj heq
    have hmag := scanMagnitude_eq_iff.mp hn
    have hspaces : ∀ c ∈ s.takeWhile isSpace, isSpace c := fun c hc => mem_takeWhile_imp hc
    have happend : s = s.takeWhile isSpace ++ s.dropWhile isSpace :=
      takeWhile_append_dropWhile.symm
    generalize s.dropWhile isSpace = rest at happend hmag ⊢
    rw [happend]
    match rest with
    | [] => exact .pos _ [] _ n hspaces (.inl rfl) hmag
    | c :: rest =>
      by_cases hminus : c = 0x2D
      · obtain rfl := hminus
        exact .neg _ rest n hspaces hmag
      · by_cases hplus : c = 0x2B
        · obtain rfl := hplus
          exact .pos _ [0x2B] rest n hspaces (.inr rfl) hmag
        · rw [scanSign, if_neg hminus, if_neg hplus] at hmag ⊢
          exact .pos _ [] _ n hspaces (.inl rfl) hmag
  · have hskip {spaces rest : Bytes} (hspaces : ∀ c ∈ spaces, isSpace c)
        (hrest : rest.dropWhile isSpace = rest) : (spaces ++ rest).dropWhile isSpace = rest := by
      rw [dropWhile_append_of_pos hspaces, hrest]
    rintro (⟨spaces, sign, s, n, hspaces, rfl | rfl, hmag⟩ | ⟨spaces, s, n, hspaces, hmag⟩)
    · rw [scanLiteral, nil_append, hskip hspaces hmag.head.1, hmag.head.2,
        scanMagnitude_eq_iff.mpr hmag]
      rfl
    · rw [scanLiteral, hskip hspaces rfl]
      exact congrArg _ (scanMagnitude_eq_iff.mpr hmag)
    · rw [scanLiteral, hskip hspaces rfl]
      exact congrArg _ (scanMagnitude_eq_iff.mpr hmag)

end BeepMusic.Lib

import Mathlib.Data.List.Infix
import BeepMusic.Lib.File
import BeepMusic.Lib.System

/-!
`jsonfile.c`: the history of a device is a file with one JSON object on each line. Rows
are appended to whatever the file ends with, and an iteration reads from the beginning
until a line does not parse. What json-c prints and parses is left open, but for the laws
of `JsonC`; reading and writing do not fail.
-/

namespace BeepMusic.Beepdata

open Lib List

def newline : UInt8 := 0x0a

/-- json-c: objects are printed on one line and parsed back, and a part of what is printed
is not an object. -/
structure JsonC (Row : Type) where
  toJsonString : Row → Bytes
  /-- `none` is the null pointer. -/
  tokenerParse : Bytes → Option Row
  parse_print : ∀ row, tokenerParse (toJsonString row) = some row
  printable : ∀ row, ∀ b ∈ toJsonString row, b ≠ 0 ∧ b ≠ newline
  parse_torn : ∀ row text, text <+: toJsonString row → text ≠ toJsonString row →
    tokenerParse text = none

/-- Up to the first newline, which is part of the line. -/
def lineOf : Bytes → Bytes
  | [] => []
  | b :: bs => if b = newline then [b] else b :: lineOf bs

variable (f : File)

/-- `none` is the end of the file. -/
def getline : Option Bytes × File :=
  let line := lineOf f.rest
  if line = [] then (none, f) else (some line, f.seek (f.pos + line.length))

/-- The newline is overwritten. -/
def chomp (line : Bytes) : Bytes :=
  if line.getLast? = some newline then line.dropLast else line

namespace JsonC

variable {Row : Type} (json : JsonC Row)

/-- What `beep_jsonfile_write_json_line` writes. -/
def jsonLine (row : Row) : Bytes := json.toJsonString row ++ [newline]

/-- `beep_jsonfile_add_row`. The file is open in the mode "a+", so that it is written at
its end. -/
def addRow (row : Row) : File :=
  let bytes := f.bytes ++ json.jsonLine row
  ⟨bytes, bytes.length⟩

/-- `beep_jsonfile_readline`. -/
def readline : Option Row × File :=
  match getline f with
  | (none, f) => (none, f)
  | (some line, f) => (json.tokenerParse (cString (chomp line)), f)

def nextRow : Option Row × File := json.readline f

def firstRow : Option Row × File := json.nextRow (f.seek 0)

/-- The loop of `beep_jsonfile_foreach`, for at most `fuel` rows. -/
def rowsFrom : (fuel : ℕ) → Option Row × File → Option (List Row × File)
  | _, (none, f) => some ([], f)
  | 0, (some _, _) => none
  | fuel + 1, (some row, f) => (rowsFrom fuel (json.nextRow f)).map fun r => (row :: r.1, r.2)

/-- A complete iteration: the rows, and the file after it. A row takes at least a byte. -/
def foreach : Option (List Row × File) :=
  json.rowsFrom f.bytes.length (json.firstRow f)

end JsonC

inductive JsonfileCall (Row : Type)
  | addRow (row : Row)
  | foreach

/-- The rows that are added, in order. -/
def added {Row : Type} : List (JsonfileCall Row) → List Row
  | [] => []
  | .addRow row :: calls => row :: added calls
  | .foreach :: calls => added calls

namespace JsonC

variable {Row : Type} (json : JsonC Row)

/-- The file from when it is opened. -/
def history (bytes : Bytes) : System File (JsonfileCall Row) where
  init := ⟨bytes, 0⟩
  step f
    | .addRow row => some (json.addRow f row)
    | .foreach => (json.foreach f).map Prod.snd

/-- Complete rows. -/
def text (rows : List Row) : Bytes := (rows.map json.jsonLine).flatten

/-- Part of a row, written before a power cut. -/
def Torn (torn : Bytes) : Prop :=
  ∃ row, torn <+: json.toJsonString row ∧ torn ≠ json.toJsonString row

variable {line : Bytes}

/-- What is read of the rows that are added behind a torn line: the first one is on the
same line. -/
def recovered (torn : Bytes) : List Row → List Row
  | [] => []
  | row :: rows =>
    match json.tokenerParse (torn ++ json.toJsonString row) with
    | none => []
    | some merged => merged :: rows

end JsonC

/-! ### Lines -/

theorem lineOf_append (h : ∀ b ∈ line, b ≠ newline) (rest : Bytes) :
    lineOf (line ++ newline :: rest) = line ++ [newline] := by
  induction line with
  | nil => rfl
  | cons b line ih =>
    rw [cons_append, lineOf, if_neg (h b (.head _)), ih fun c hc => h c (.tail _ hc)]
    rfl

theorem lineOf_eq_self (h : ∀ b ∈ line, b ≠ newline) : lineOf line = line := by
  induction line with
  | nil => rfl
  | cons b line ih => rw [lineOf, if_neg (h b (.head _)), ih fun c hc => h c (.tail _ hc)]

theorem drop_line (line rest : Bytes) :
    (line ++ newline :: rest).drop (line.length + 1) = rest := by
  simp

theorem chomp_append (line : Bytes) : chomp (line ++ [newline]) = line := by
  rw [chomp, getLast?_concat, if_pos rfl, dropLast_concat]

theorem chomp_eq_self (h : ∀ b ∈ line, b ≠ newline) : chomp line = line :=
  if_neg fun hlast => h newline (mem_of_getLast? hlast) rfl

namespace JsonC

variable {Row : Type} (json : JsonC Row) {f : File} {line : Bytes}

theorem readline_line (h : ∀ b ∈ line, b ≠ 0 ∧ b ≠ newline) {rest : Bytes}
    (hrest : f.rest = line ++ newline :: rest) :
    json.readline f = (json.tokenerParse line, f.seek (f.pos + (line.length + 1))) := by
  rw [readline, getline, hrest, lineOf_append fun b hb => (h b hb).2, if_neg (by simp)]
  simp [chomp_append, cString_eq_self fun b hb => (h b hb).1]

theorem readline_last (h : ∀ b ∈ line, b ≠ 0 ∧ b ≠ newline) (hrest : f.rest = line)
    (hparse : line ≠ [] → json.tokenerParse line = none) :
    ∃ f', json.readline f = (none, f') := by
  have hnewline : ∀ b ∈ line, b ≠ newline := fun b hb => (h b hb).2
  rw [readline, getline, hrest, lineOf_eq_self hnewline]
  split_ifs with hnil
  · exact ⟨f, rfl⟩
  · simp only [chomp_eq_self hnewline, cString_eq_self fun b hb => (h b hb).1, hparse hnil]
    exact ⟨_, rfl⟩

/-- A row that is read takes some of the file, and the file stays. -/
theorem readline_advances (f : File) :
    (json.readline f).2.bytes = f.bytes ∧
      ((json.readline f).1 ≠ none → (json.readline f).2.rest.length < f.rest.length) := by
  rw [readline, getline]
  split_ifs with hline
  · exact ⟨rfl, fun hrow => absurd rfl hrow⟩
  · refine ⟨rfl, fun _ => ?_⟩
    have hpos := length_pos_iff.mpr hline
    have hrest : f.rest ≠ [] := by
      intro hnil
      rw [hnil] at hline
      exact hline rfl
    have hlength := length_pos_iff.mpr hrest
    rw [File.rest_seek_add, length_drop]
    omega

/-! ### Iterations -/

theorem rowsFrom_mono {n m : ℕ} (h : n ≤ m) {r : Option Row × File} {x : List Row × File}
    (hx : json.rowsFrom n r = some x) : json.rowsFrom m r = some x := by
  induction n generalizing m r x with
  | zero =>
    obtain ⟨row, f⟩ := r
    cases row with
    | none =>
      rw [rowsFrom] at hx ⊢
      exact hx
    | some row => cases hx
  | succ n ih =>
    obtain ⟨row, f⟩ := r
    cases row with
    | none =>
      rw [rowsFrom] at hx ⊢
      exact hx
    | some row =>
      obtain ⟨m, rfl⟩ : ∃ k, m = k + 1 := ⟨m - 1, by omega⟩
      obtain ⟨x, hrest, rfl⟩ := Option.map_eq_some_iff.mp hx
      rw [rowsFrom, ih (Nat.le_of_succ_le_succ h) hrest]
      rfl

theorem rowsFrom_returns (fuel : ℕ) (f : File) (h : f.rest.length ≤ fuel) :
    ∃ rows f', json.rowsFrom fuel (json.readline f) = some (rows, f') ∧ f'.bytes = f.bytes := by
  induction fuel generalizing f with
  | zero =>
    obtain ⟨f', hline⟩ : ∃ f', json.readline f = (none, f') :=
      json.readline_last (by simp) (eq_nil_of_length_eq_zero (Nat.le_zero.mp h))
        fun hne => absurd rfl hne
    have hbytes := (json.readline_advances f).1
    rw [hline] at hbytes ⊢
    exact ⟨[], f', rfl, hbytes⟩
  | succ fuel ih =>
    obtain ⟨hbytes, hless⟩ := json.readline_advances f
    obtain ⟨row, f', hline⟩ : ∃ row f', json.readline f = (row, f') := ⟨_, _, rfl⟩
    rw [hline] at hbytes hless ⊢
    cases row with
    | none => exact ⟨[], f', rfl, hbytes⟩
    | some row =>
      have hshort : f'.rest.length < f.rest.length := hless (by simp)
      obtain ⟨rows, last, hrows, hlast⟩ := ih f' (by omega)
      refine ⟨row :: rows, last, ?_, hlast.trans hbytes⟩
      rw [rowsFrom, nextRow, hrows]
      rfl

theorem foreach_returns (f : File) :
    ∃ rows f', json.foreach f = some (rows, f') ∧ f'.bytes = f.bytes :=
  json.rowsFrom_returns f.bytes.length (f.seek 0) (Nat.le_refl _)

/-- Complete rows are read one after the other. -/
theorem rowsFrom_text (rows : List Row) {tail : Bytes} {fuel : ℕ} {x : List Row × File}
    (hrest : f.rest = json.text rows ++ tail)
    (hx : json.rowsFrom fuel (json.readline (f.seek (f.pos + (json.text rows).length))) = some x) :
    json.rowsFrom (rows.length + fuel) (json.readline f) = some (rows ++ x.1, x.2) := by
  induction rows generalizing f with
  | nil =>
    rw [length_nil, Nat.zero_add]
    exact hx
  | cons row rows ih =>
    have htext : json.text (row :: rows) =
        json.toJsonString row ++ newline :: json.text rows := by
      simp [text, jsonLine]
    have hline : f.rest = json.toJsonString row ++ newline :: (json.text rows ++ tail) := by
      rw [hrest, htext, append_assoc, cons_append]
    have hnext : (f.seek (f.pos + ((json.toJsonString row).length + 1))).rest =
        json.text rows ++ tail := by
      rw [File.rest_seek_add, hline, drop_line]
    have hpos : f.pos + (json.text (row :: rows)).length =
        f.pos + ((json.toJsonString row).length + 1) + (json.text rows).length := by
      rw [htext, length_append, length_cons]
      omega
    rw [hpos] at hx
    have hrows := ih hnext hx
    rw [json.readline_line (json.printable row) hline, json.parse_print, length_cons,
      Nat.succ_add, rowsFrom, nextRow, hrows]
    rfl

theorem length_le_text (rows : List Row) : rows.length ≤ (json.text rows).length := by
  induction rows with
  | nil => exact Nat.le_refl _
  | cons row rows ih =>
    simp only [text, jsonLine, map_cons, flatten_cons, length_append,
      length_cons, length_nil] at ih ⊢
    omega

variable {torn : Bytes}

theorem printable_torn (h : torn = [] ∨ json.Torn torn) : ∀ b ∈ torn, b ≠ 0 ∧ b ≠ newline := by
  rcases h with rfl | ⟨row, hsub, -⟩
  · simp
  · exact fun b hb => json.printable row b (hsub.subset hb)

/-- What is read behind the complete rows. -/
theorem rowsFrom_torn (h : torn = [] ∨ json.Torn torn) (rows : List Row)
    (hrest : f.rest = torn ++ json.text rows) :
    ∃ f', json.rowsFrom rows.length (json.readline f) = some (json.recovered torn rows, f') := by
  cases rows with
  | nil =>
    have hparse : torn ≠ [] → json.tokenerParse torn = none := by
      intro hne
      obtain ⟨row, hsub, hpart⟩ := h.resolve_left hne
      exact json.parse_torn row torn hsub hpart
    have hlast : f.rest = torn := hrest.trans (append_nil torn)
    obtain ⟨f', hline⟩ := json.readline_last (json.printable_torn h) hlast hparse
    rw [hline]
    exact ⟨f', rfl⟩
  | cons row rows =>
    -- the first row that is added ends the torn line
    have hline : f.rest = (torn ++ json.toJsonString row) ++ newline :: json.text rows := by
      rw [hrest]
      simp [text, jsonLine]
    have hclean : ∀ b ∈ torn ++ json.toJsonString row, b ≠ 0 ∧ b ≠ newline := by
      intro b hb
      rcases mem_append.mp hb with hb | hb
      · exact json.printable_torn h b hb
      · exact json.printable row b hb
    rw [json.readline_line hclean hline, recovered]
    cases json.tokenerParse (torn ++ json.toJsonString row) with
    | none => exact ⟨_, rfl⟩
    | some merged =>
      obtain ⟨next, hnext⟩ : ∃ next : File, next = f.seek (f.pos +
        ((torn ++ json.toJsonString row).length + 1)) := ⟨_, rfl⟩
      have hrows : next.rest = json.text rows ++ [] := by
        rw [hnext, File.rest_seek_add, hline, append_nil, drop_line]
      have hend : (next.seek (next.pos + (json.text rows).length)).rest = [] := by
        rw [File.rest_seek_add, hrows]
        simp
      obtain ⟨f', hstop⟩ := json.readline_last (by simp) hend fun hne => absurd rfl hne
      have hnone : json.rowsFrom 0 (json.readline
          (next.seek (next.pos + (json.text rows).length))) = some ([], f') := by
        rw [hstop]
        rfl
      have hall := json.rowsFrom_text rows hrows hnone
      rw [length_cons, rowsFrom, nextRow, ← hnext, ← Nat.add_zero rows.length, hall]
      simp

theorem foreach_eq (h : torn = [] ∨ json.Torn torn) (rows more : List Row)
    (hbytes : f.bytes = json.text rows ++ (torn ++ json.text more)) :
    ∃ f', json.foreach f = some (rows ++ json.recovered torn more, f') := by
  have hstart : (f.seek 0).rest = json.text rows ++ (torn ++ json.text more) := hbytes
  have htail : ((f.seek 0).seek ((f.seek 0).pos + (json.text rows).length)).rest =
      torn ++ json.text more := by
    rw [File.rest_seek_add, hstart, drop_left]
  obtain ⟨f', htorn⟩ := json.rowsFrom_torn h more htail
  have hall := json.rowsFrom_text rows hstart htorn
  have hfuel : rows.length + more.length ≤ f.bytes.length := by
    have hrows := json.length_le_text rows
    have hmore := json.length_le_text more
    rw [hbytes, length_append, length_append]
    omega
  exact ⟨f', json.rowsFrom_mono hfuel hall⟩

/-- A step appends what it adds. -/
theorem bytes_step (bytes : Bytes) (f : File) (call : JsonfileCall Row) :
    ∃ f', (json.history bytes).step f call = some f' ∧
      f'.bytes = f.bytes ++ json.text (added [call]) := by
  cases call with
  | addRow row => exact ⟨_, rfl, by simp [addRow, text, added]⟩
  | foreach =>
    obtain ⟨rows, f', hrows, hsame⟩ := json.foreach_returns f
    refine ⟨f', congrArg (Option.map Prod.snd) hrows, ?_⟩
    rw [hsame]
    exact (append_nil _).symm

theorem text_append (rows more : List Row) :
    json.text (rows ++ more) = json.text rows ++ json.text more := by
  simp [text]

theorem added_cons (call : JsonfileCall Row) (calls : List (JsonfileCall Row)) :
    added (call :: calls) = added [call] ++ added calls := by
  cases call <;> rfl

/-- All calls return, and the file holds what it did and every row that is added. -/
theorem bytes_run (bytes : Bytes) (calls : List (JsonfileCall Row)) (f : File) :
    ∃ f', (json.history bytes).runFrom f calls = some f' ∧
      f'.bytes = f.bytes ++ json.text (added calls) := by
  induction calls generalizing f with
  | nil => exact ⟨f, rfl, (append_nil _).symm⟩
  | cons call calls ih =>
    obtain ⟨middle, hstep, hmiddle⟩ := json.bytes_step bytes f call
    obtain ⟨f', hrun, hbytes⟩ := ih middle
    refine ⟨f', ?_, ?_⟩
    · rw [System.runFrom, hstep, Option.bind_some, hrun]
    · rw [hbytes, hmiddle, added_cons call calls, text_append, append_assoc]

theorem recovered_nil (rows : List Row) : json.recovered [] rows = rows := by
  cases rows with
  | nil => rfl
  | cons row rows => rw [recovered, nil_append, json.parse_print]

end JsonC

/-- A file of complete rows keeps every row that is added, and a torn last line hides
nothing as long as none is. The first row that is added behind a torn line becomes part of
it; where the two do not parse, none of the rows that are added is ever read. -/
theorem history_complete {Row : Type} (json : JsonC Row) (rows : List Row) (torn : Bytes)
    (htorn : torn = [] ∨ json.Torn torn) (calls : List (JsonfileCall Row)) :
    ∃ f last, (json.history (json.text rows ++ torn)).runFrom ⟨json.text rows ++ torn, 0⟩ calls =
        some f ∧
      json.foreach f = some (rows ++ json.recovered torn (added calls), last) ∧
      (torn = [] ∨ added calls = [] → json.foreach f = some (rows ++ added calls, last)) := by
  obtain ⟨f, hrun, hbytes⟩ := json.bytes_run (json.text rows ++ torn) calls
    ⟨json.text rows ++ torn, 0⟩
  have hfile : f.bytes = json.text rows ++ (torn ++ json.text (added calls)) :=
    hbytes.trans (append_assoc ..)
  obtain ⟨last, hrows⟩ := json.foreach_eq htorn rows (added calls) hfile
  refine ⟨f, last, hrun, hrows, fun hwhen => ?_⟩
  rcases hwhen with rfl | hnone
  · rw [hrows, JsonC.recovered_nil]
  · rw [hrows, hnone]
    rfl

/-- The bytes of a text. -/
def textBytes (text : String) : Bytes := text.toList.map fun c => UInt8.ofNat c.toNat

def onOffText (row : Bool) : Bytes :=
  textBytes (if row then "\x7b \"on\": true \x7d" else "\x7b \"on\": false \x7d")

/-- json-c on objects with one boolean member. -/
def onOff : JsonC Bool where
  toJsonString := onOffText
  tokenerParse text :=
    if text = onOffText true then some true
    else if text = onOffText false then some false
    else none
  parse_print := by decide
  printable := by decide +kernel
  parse_torn row text hpart hne := by
    have hinits : ∀ row, ∀ text ∈ (onOffText row).inits, text ≠ onOffText row →
        text ≠ onOffText true ∧ text ≠ onOffText false := by decide +kernel
    obtain ⟨htrue, hfalse⟩ := hinits row text ((List.mem_inits ..).mpr hpart) hne
    rw [if_neg htrue, if_neg hfalse]

/-- A torn line, and two iterations with a row before each. -/
theorem history_complete_onOff :
    onOff.Torn (textBytes "\x7b \"on") ∧
      ∃ f last, (onOff.history (onOff.text [true] ++ [])).runFrom ⟨onOff.text [true] ++ [], 0⟩
          [.addRow false, .foreach, .addRow true, .foreach] = some f ∧
        onOff.foreach f = some ([true, false, true], last) := by
  refine ⟨⟨true, by decide, by decide⟩, ?_⟩
  obtain ⟨f, last, hrun, -, hrows⟩ := history_complete onOff [true] [] (.inl rfl)
    [.addRow false, .foreach, .addRow true, .foreach]
  exact ⟨f, last, hrun, hrows (.inl rfl)⟩

/-- A row that is added behind a torn line is lost, with all that follow. -/
theorem torn_line_loses_rows :
    onOff.Torn (textBytes "\x7b \"on") ∧
      ((onOff.history (onOff.text [true] ++ textBytes "\x7b \"on")).runFrom
        ⟨onOff.text [true] ++ textBytes "\x7b \"on", 0⟩
        [.addRow false, .foreach, .addRow true]).bind (fun f => (onOff.foreach f).map Prod.fst) =
          some [true] :=
  ⟨⟨true, by decide, by decide⟩, by decide +kernel⟩

end BeepMusic.Beepdata

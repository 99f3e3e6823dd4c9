import ActorNet.Json.Reader
import ActorNet.Json.Writer
import Mathlib.Data.List.Forall2
import Mathlib.Data.List.TakeDrop
import Mathlib.Tactic.IntervalCases

set_option autoImplicit false

/-!
# What is written can be read

Texts, flags and unsigned numbers of 64 bits are read as they were written, whatever stands behind them, and so is an
object of fields that can be read.
-/
namespace ActorNet.Json

open Reader

/-- How a written character is read: one below the blank that has no short escape is read by its number. -/
def Reader.Piece.of (c : Char) : Piece :=
  if c.toNat < 0x20 ∧ c ∉ ['\x08', '\x0c', '\n', '\r', '\t'] then .code c.toNat else .char c

section Escape

variable (rest : List Char)

theorem pieces?_short {letter c : Char} (h : escaped? letter = some c) :
    pieces? ('\\' :: letter :: rest) = (pieces? rest).map (Prod.map (.char c :: ·) id) := by
  have hletter : letter ≠ 'u' := by
    rintro rfl
    cases h
  cases hrest : pieces? rest <;> simp [pieces?, hletter, h, hrest, Prod.map]

theorem hexNumber?_control :
    ∀ n < 0x20, hexNumber? ['0', '0', Nat.digitChar (n / 16), Nat.digitChar (n % 16)] = some n := by
  decide

theorem pieces?_control {n : Nat} (h : n < 0x20) :
    pieces? ('\\' :: 'u' :: '0' :: '0' :: Nat.digitChar (n / 16) :: Nat.digitChar (n % 16) :: rest) =
      (pieces? rest).map (Prod.map (.code n :: ·) id) := by
  rw [pieces?, hexNumber?_control n h]
  cases pieces? rest <;> rfl

theorem pieces?_plain {c : Char} (quote : c ≠ '"') (backslash : c ≠ '\\') (h : ¬c.toNat < 0x20) :
    pieces? (c :: rest) = (pieces? rest).map (Prod.map (.char c :: ·) id) := by
  have hguard : (guard (0x20 ≤ c.toNat) : Option Unit) = some () := if_pos (Nat.le_of_not_lt h)
  cases hrest : pieces? rest <;> simp [pieces?, backslash, hguard, hrest, Prod.map]

theorem pieces?_escape (c : Char) :
    pieces? ((escape c).toList ++ rest) = (pieces? rest).map (Prod.map (.of c :: ·) id) := by
  unfold escape
  split_ifs with hquote hbackslash hb hf hn hr ht hcontrol
  case pos => subst hquote; exact pieces?_short rest rfl
  case pos => subst hbackslash; exact pieces?_short rest rfl
  case pos => subst hb; exact pieces?_short rest rfl
  case pos => subst hf; exact pieces?_short rest rfl
  case pos => subst hn; exact pieces?_short rest rfl
  case pos => subst hr; exact pieces?_short rest rfl
  case pos => subst ht; exact pieces?_short rest rfl
  case pos =>
    have hof : Piece.of c = .code c.toNat := if_pos ⟨hcontrol, by simp [hb, hf, hn, hr, ht]⟩
    rw [hof, ← pieces?_control rest hcontrol]
    simp
  case neg =>
    have hof : Piece.of c = .char c := if_neg fun h => hcontrol h.1
    rw [hof, ← pieces?_plain rest hquote hbackslash hcontrol]
    simp

end Escape

theorem chars?_of (c : Char) (ps : List Piece) : chars? (.of c :: ps) = (chars? ps).map (c :: ·) := by
  unfold Piece.of
  split
  case isTrue h =>
    have hhigh : isHigh c.toNat = false := by simp [isHigh]; omega
    have hlow : isLow c.toNat = false := by simp [isLow]; omega
    rw [chars?.eq_def]
    simp [hhigh, hlow]
  case isFalse => rfl

def escapes (text : String) : List Char := text.toList.flatMap fun c => (escape c).toList

theorem quote_toList (text : String) : (quote text).toList = '"' :: escapes text ++ ['"'] := by
  have hfold : ∀ (cs : List Char) (written : String),
      (cs.foldl (fun written c => written ++ escape c) written).toList =
        written.toList ++ cs.flatMap fun c => (escape c).toList := by
    intro cs
    induction cs with
    | nil => simp
    | cons c cs ih => simp [ih]
  unfold quote escapes
  rw [String.foldl_eq_foldl_toList]
  simp [hfold]

theorem string?_escapes (text : String) (rest : List Char) :
    string? (escapes text ++ '"' :: rest) = some (some text, rest) := by
  have hpieces : ∀ cs : List Char, pieces? ((cs.flatMap fun c => (escape c).toList) ++ '"' :: rest) =
      some (cs.map .of, rest) := by
    intro cs
    induction cs with
    | nil => rfl
    | cons c cs ih =>
      rw [List.flatMap_cons, List.append_assoc, pieces?_escape, ih]
      rfl
  have hchars : ∀ cs : List Char, chars? (cs.map .of) = some cs := by
    intro cs
    induction cs with
    | nil => rfl
    | cons c cs ih => rw [List.map_cons, chars?_of, ih, Option.map_some]
  unfold string? escapes
  rw [hpieces, Option.map_some]
  dsimp only
  rw [hchars, Option.map_some, String.ofList_toList]

/-- What may stand behind a value inside an object, or at the end of the text. -/
def Ends (rest : List Char) : Prop := ∀ c cs, rest = c :: cs → c = ',' ∨ c = '\x7d'

theorem ends_comma (cs : List Char) : Ends (',' :: cs) := by
  rintro c cs' ⟨⟩
  exact .inl rfl

theorem ends_brace (cs : List Char) : Ends ('\x7d' :: cs) := by
  rintro c cs' ⟨⟩
  exact .inr rfl

theorem natural_toDigits (n : Nat) : natural (Nat.toDigits 10 n) = n := by
  rw [natural, ← Nat.ofDigitChars_eq_foldl, Nat.ofDigitChars_ten_toDigits]

theorem toDigits_isDigit {n : Nat} {c : Char} (h : c ∈ Nat.toDigits 10 n) : c.isDigit = true :=
  Nat.isDigit_of_mem_toDigits (by decide) (by decide) h

theorem toDigits_head {n : Nat} (h : 0 < n) : (Nat.toDigits 10 n).head? ≠ some '0' := by
  induction n using Nat.strong_induction_on with
  | _ n ih =>
    by_cases hn : n < 10
    · rw [Nat.toDigits_of_lt_base hn]
      interval_cases n <;> decide
    · rw [Nat.toDigits_of_base_le (by decide) (Nat.le_of_not_lt hn)]
      have hrest := ih (n / 10) (by omega) (by omega)
      cases hdigits : Nat.toDigits 10 (n / 10) with
      | nil => exact absurd hdigits Nat.toDigits_ne_nil
      | cons d ds => rwa [hdigits] at hrest

section Number

variable {rest : List Char} (ends : Ends rest) (n : Nat)

include ends

theorem digits?_toDigits : digits? (Nat.toDigits 10 n ++ rest) = some (Nat.toDigits 10 n, rest) := by
  have hend : rest.takeWhile Char.isDigit = [] ∧ rest.dropWhile Char.isDigit = rest := by
    cases rest with
    | nil => exact ⟨rfl, rfl⟩
    | cons c cs => rcases ends c cs rfl with rfl | rfl <;> exact ⟨rfl, rfl⟩
  have hspan : (Nat.toDigits 10 n ++ rest).span Char.isDigit = (Nat.toDigits 10 n, rest) := by
    rw [List.span_eq_takeWhile_dropWhile, List.takeWhile_append_of_pos fun _ => toDigits_isDigit,
      List.dropWhile_append_of_pos fun _ => toDigits_isDigit, hend.1, hend.2, List.append_nil]
  unfold digits?
  rw [hspan]
  cases hdigits : Nat.toDigits 10 n with
  | nil => exact absurd hdigits Nat.toDigits_ne_nil
  | cons => rfl

theorem whole?_toDigits : whole? (Nat.toDigits 10 n ++ rest) = some (Nat.toDigits 10 n, rest) := by
  have hminimal : (Nat.toDigits 10 n).length = 1 ∨ (Nat.toDigits 10 n).head? ≠ some '0' := by
    cases n with
    | zero => exact .inl rfl
    | succ n => exact .inr (toDigits_head (Nat.succ_pos n))
  simp [whole?, digits?_toDigits ends, guard, hminimal]

theorem fraction?_absent : fraction? rest = some ([], rest) := by
  cases rest with
  | nil => rfl
  | cons c cs => rcases ends c cs rfl with rfl | rfl <;> rfl

theorem exponent?_absent : exponent? rest = some ([], rest) := by
  cases rest with
  | nil => rfl
  | cons c cs => rcases ends c cs rfl with rfl | rfl <;> rfl

theorem number?_toDigits (small : n ≤ wordMax) : number? (Nat.toDigits 10 n ++ rest) = some (.int n, rest) := by
  have hexact : isExact n = true := by
    simp [isExact, signedMin]
    omega
  have hunsigned : ∀ cs, Nat.toDigits 10 n ++ rest ≠ '-' :: cs := by
    intro cs heq
    cases hdigits : Nat.toDigits 10 n with
    | nil => exact absurd hdigits Nat.toDigits_ne_nil
    | cons d ds =>
      rw [hdigits] at heq
      have hd : d.isDigit = true := toDigits_isDigit (n := n) (by rw [hdigits]; exact List.mem_cons_self)
      rw [(List.cons.inj heq).1] at hd
      cases hd
  unfold number?
  split
  next sign cs hsign =>
    split at hsign
    next hminus => exact absurd hminus (hunsigned _)
    next =>
      cases hsign
      simp [whole?_toDigits ends, fraction?_absent ends, exponent?_absent ends, natural_toDigits, hexact]

end Number

/-- The written value is read as the source, with no more fuel than it has characters. -/
structure Legible (value : Value) (source : Source) : Prop where
  start : ∃ c cs, value.render.toList = c :: cs ∧ isBlank c = false
  read : ∀ fuel rest, Ends rest → value.render.toList.length < fuel →
    value? fuel (value.render.toList ++ rest) = some (source, rest)

theorem Legible.skipBlank {value : Value} {source : Source} (h : Legible value source) (rest : List Char) :
    skipBlank (value.render.toList ++ rest) = value.render.toList ++ rest := by
  obtain ⟨c, cs, hstart, hc⟩ := h.start
  rw [hstart, List.cons_append, Reader.skipBlank, List.dropWhile_cons_of_neg (by simp [hc])]

theorem legible_bool (b : Bool) : Legible (.bool b) (.bool b) where
  start := by cases b <;> exact ⟨_, _, rfl, rfl⟩
  read fuel rest ends enough := by
    obtain ⟨fuel, rfl⟩ := Nat.exists_eq_succ_of_ne_zero (Nat.ne_zero_of_lt enough)
    cases b <;> rfl

theorem value?_digit {c : Char} (h : c.isDigit = true) (fuel : Nat) (rest : List Char) :
    value? (fuel + 1) (c :: rest) = number? (c :: rest) := by
  have hother : c ≠ 'n' ∧ c ≠ 't' ∧ c ≠ 'f' ∧ c ≠ '"' ∧ c ≠ '[' ∧ c ≠ '\x7b' := by
    refine ⟨?_, ?_, ?_, ?_, ?_, ?_⟩ <;>
      · rintro rfl
        cases h
  simp [value?, hother]

theorem render_nat (n : Nat) : (Value.int n).render.toList = Nat.toDigits 10 n := Nat.toList_repr

theorem legible_nat {n : Nat} (small : n ≤ wordMax) : Legible (.int n) (.int n) where
  start := by
    rw [render_nat]
    cases hdigits : Nat.toDigits 10 n with
    | nil => exact absurd hdigits Nat.toDigits_ne_nil
    | cons c cs =>
      refine ⟨c, cs, rfl, ?_⟩
      have hc : c.isDigit = true := toDigits_isDigit (n := n) (by rw [hdigits]; exact List.mem_cons_self)
      by_contra hblank
      simp only [isBlank, Bool.not_eq_false, Bool.or_eq_true, beq_iff_eq] at hblank
      rcases hblank with ((rfl | rfl) | rfl) | rfl <;> cases hc
  read fuel rest ends enough := by
    obtain ⟨fuel, rfl⟩ := Nat.exists_eq_succ_of_ne_zero (Nat.ne_zero_of_lt enough)
    have hnumber := number?_toDigits ends n small
    rw [render_nat] at enough ⊢
    cases hdigits : Nat.toDigits 10 n with
    | nil => exact absurd hdigits Nat.toDigits_ne_nil
    | cons c cs =>
      have hc : c.isDigit = true := toDigits_isDigit (n := n) (by rw [hdigits]; exact List.mem_cons_self)
      rw [hdigits, List.cons_append] at hnumber
      rwa [List.cons_append, value?_digit hc]

theorem skipBlank_mark {c : Char} (h : isBlank c = false) (rest : List Char) : skipBlank (c :: rest) = c :: rest := by
  rw [skipBlank, List.dropWhile_cons_of_neg (by simp [h])]

def LegibleField (field : String × Value) (entry : Option String × Source) : Prop :=
  entry.1 = some field.1 ∧ Legible field.2 entry.2

def inner (fields : List (String × Value)) : List Char := (",".intercalate (Value.renderFields fields)).toList

theorem inner_singleton (name : String) (value : Value) :
    inner [(name, value)] = '"' :: (escapes name ++ '"' :: ':' :: value.render.toList) := by
  simp [inner, Value.renderFields, quote_toList]

theorem inner_cons (name : String) (value : Value) (field : String × Value) (fields : List (String × Value)) :
    inner ((name, value) :: field :: fields) =
      '"' :: (escapes name ++ '"' :: ':' :: (value.render.toList ++ ',' :: inner (field :: fields))) := by
  simp [inner, Value.renderFields, quote_toList]

theorem inner_start (field : String × Value) (fields : List (String × Value)) :
    ∃ cs, inner (field :: fields) = '"' :: cs := by
  cases fields with
  | nil => exact ⟨_, inner_singleton field.1 field.2⟩
  | cons other fields => exact ⟨_, inner_cons field.1 field.2 other fields⟩

section Field

variable {value : Value} {source : Source} (h : Legible value source) (name : String) (fuel : Nat)
  (enough : value.render.toList.length < fuel) (rest : List Char)

include h enough

theorem fields?_last :
    fields? (fuel + 1) ('"' :: (escapes name ++ '"' :: ':' :: (value.render.toList ++ '\x7d' :: rest))) =
      some ([(some name, source)], rest) := by
  have hcolon (cs : List Char) : skipBlank (':' :: cs) = ':' :: cs := skipBlank_mark rfl cs
  have hbrace (cs : List Char) : skipBlank ('\x7d' :: cs) = '\x7d' :: cs := skipBlank_mark rfl cs
  rw [fields?, string?_escapes]
  simp [hcolon, hbrace, h.skipBlank, h.read fuel _ (ends_brace rest) enough]

theorem fields?_more (cs : List Char) :
    fields? (fuel + 1) ('"' :: (escapes name ++ '"' :: ':' :: (value.render.toList ++ ',' :: '"' :: cs))) =
      (fields? fuel ('"' :: cs)).map (Prod.map ((some name, source) :: ·) id) := by
  have hcolon (cs : List Char) : skipBlank (':' :: cs) = ':' :: cs := skipBlank_mark rfl cs
  have hcomma (cs : List Char) : skipBlank (',' :: cs) = ',' :: cs := skipBlank_mark rfl cs
  have hquote (cs : List Char) : skipBlank ('"' :: cs) = '"' :: cs := skipBlank_mark rfl cs
  rw [fields?, string?_escapes]
  simp only [hcolon, hcomma, hquote, h.skipBlank, h.read fuel _ (ends_comma _) enough, Option.bind_eq_bind,
    Option.bind_some]
  cases fields? fuel ('"' :: cs) <;> rfl

end Field

theorem fields?_inner {fields : List (String × Value)} {entries : List (Option String × Source)}
    (legible : List.Forall₂ LegibleField fields entries) (present : fields ≠ []) (fuel : Nat) (rest : List Char)
    (enough : (inner fields).length < fuel) :
    fields? fuel (inner fields ++ '\x7d' :: rest) = some (entries, rest) := by
  induction legible generalizing fuel with
  | nil => exact absurd rfl present
  | @cons field entry fields entries hfield hfields ih =>
    obtain ⟨name, value⟩ := field
    obtain ⟨_, source⟩ := entry
    obtain ⟨rfl, hvalue : Legible value source⟩ := hfield
    obtain ⟨fuel, rfl⟩ := Nat.exists_eq_succ_of_ne_zero (Nat.ne_zero_of_lt enough)
    cases fields with
    | nil =>
      cases hfields
      rw [inner_singleton] at enough ⊢
      simp only [List.length_cons, List.length_append] at enough
      have hlast := fields?_last hvalue name fuel (by omega) rest
      simpa using hlast
    | cons other fields =>
      obtain ⟨cs, hcs⟩ := inner_start other fields
      rw [inner_cons] at enough ⊢
      simp only [List.length_cons, List.length_append] at enough
      have hrest := ih (by simp) fuel (by omega)
      have hmore := fields?_more hvalue name fuel (by omega) (cs ++ '\x7d' :: rest)
      rw [hcs, List.cons_append] at hrest
      rw [hrest] at hmore
      simpa [hcs] using hmore

theorem value?_object (fuel : Nat) (cs : List Char) :
    value? (fuel + 1) ('\x7b' :: '"' :: cs) = (fields? fuel ('"' :: cs)).map (Prod.map .object id) := rfl

theorem read?_render {fields : List (String × Value)} {entries : List (Option String × Source)}
    (legible : List.Forall₂ LegibleField fields entries) (present : fields ≠ []) :
    read? (Value.object fields).render = some (.object entries) := by
  obtain ⟨cs, hcs⟩ : ∃ cs, inner fields = '"' :: cs := by
    cases fields with
    | nil => exact absurd rfl present
    | cons field fields => exact inner_start field fields
  have htext : (Value.object fields).render.toList = '\x7b' :: '"' :: (cs ++ ['\x7d']) := by
    have hinner : (Value.object fields).render.toList = '\x7b' :: (inner fields ++ ['\x7d']) := by
      simp [Value.render, inner]
    rw [hinner, hcs, List.cons_append]
  have hfields := fields?_inner legible present (2 * (cs.length + 3) + 1) [] (by
    rw [hcs]
    simp only [List.length_cons]
    omega)
  rw [hcs, List.cons_append] at hfields
  have hfuel : 2 * ('\x7b' :: '"' :: (cs ++ ['\x7d'])).length + 2 = 2 * (cs.length + 3) + 1 + 1 := by simp
  unfold read?
  dsimp only
  rw [htext, skipBlank_mark rfl, hfuel, value?_object, hfields]
  rfl

end ActorNet.Json

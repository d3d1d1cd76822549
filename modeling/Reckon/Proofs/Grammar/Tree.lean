import Reckon.Proofs.Expr.Parts
import Reckon.Proofs.Token.Lexeme
import Reckon.Session

/-!
# Parsed trees

What the expressions have in common that are read from a text. They can be written again: literals
are not negative, names are names, and an operator that assigns stands in assignments only.

* `Expr.Printable`: expressions that can be written. They are well sorted, with literals and names
  that can be written for leaves.
* `Source.printable_of_program`: programs that are read from a source are printable.
-/

namespace Reckon

open Token (Kind)

/-! ## Trees that can be written -/

/-- The words that are no names. -/
def keywords : List String := ["print", "true", "false"]

/-- A name: a letter or an underscore, then letters, underscores and digits, and no keyword. -/
def IsName (x : String) : Prop :=
  ∃ c cs, x.toList = c :: cs ∧ isNameStart c = true ∧ (∀ d ∈ cs, isNamePart d = true) ∧ x ∉ keywords

/-- Literals and names that can be written: no literal is negative, and names are names. -/
def Expr.PrintableLeaf : Expr → Prop
  | int _ n => 0 ≤ n.toInt
  | var _ _ x => IsName x
  | _ => True

/-- Expressions that can be written. -/
def Expr.Printable (e : Expr) : Prop := e.SortedOver PrintableLeaf

theorem Token.Kind.ofWord_eq_identifier_iff {x : String} :
    ofWord x = .identifier ↔ x ∉ keywords := by
  unfold ofWord keywords
  grind

theorem Token.Kind.ofWord_ne_integer (x : String) : ofWord x ≠ .integer := by
  unfold ofWord
  grind

/-! ## Literals -/

namespace Literal

theorem natural?_eq {cs : List Char} (hne : cs ≠ []) (h : ∀ d ∈ cs, d.isDigit = true) :
    natural? cs = some (Nat.ofDigitChars 10 cs 0) := by
  rw [natural?, if_pos ⟨hne, List.all_eq_true.2 h⟩]

/-- Digits alone denote a natural number. -/
theorem integer?_digits {c : Char} {cs : List Char} (hc : c.isDigit = true)
    (hcs : ∀ d ∈ cs, d.isDigit = true) :
    integer? (c :: cs) = some (Int.ofNat (Nat.ofDigitChars 10 (c :: cs) 0)) := by
  have hdigits : ∀ d ∈ c :: cs, d.isDigit = true := by
    intro d hd
    rcases List.mem_cons.1 hd with rfl | hd
    · exact hc
    · exact hcs d hd
  have hplus : c ≠ '+' := by rintro rfl; cases hc
  have hminus : c ≠ '-' := by rintro rfl; cases hc
  unfold integer?
  split
  · rename_i heq; exact absurd (List.cons.inj heq).1 hplus
  · rename_i heq; exact absurd (List.cons.inj heq).1 hminus
  · rw [natural?_eq (List.cons_ne_nil _ _) hdigits]
    rfl

/-- The word that digits alone denote is not negative. -/
theorem toInt_nonneg_of_digits {c : Char} {cs : List Char} (hc : c.isDigit = true)
    (hcs : ∀ d ∈ cs, d.isDigit = true) {n : Int32}
    (h : word? (String.ofList (c :: cs)) = some n) : 0 ≤ n.toInt := by
  rw [word?, String.toList_ofList, integer?_digits hc hcs] at h
  dsimp only at h
  split at h
  · rename_i hbound
    cases h
    rw [Int32.toInt_minValue, Int32.toInt_maxValue] at hbound
    rw [Int32.toInt_ofInt_of_le hbound.1 (by omega)]
    exact Int.natCast_nonneg _
  · cases h

/-- The decimal digits of a word that is not negative denote it. -/
theorem word?_toDigits {n : Int32} (h : 0 ≤ n.toInt) :
    word? (String.ofList (Nat.toDigits 10 n.toInt.natAbs)) = some n := by
  have hdigits : ∀ d ∈ Nat.toDigits 10 n.toInt.natAbs, d.isDigit = true :=
    fun d hd => Nat.isDigit_of_mem_toDigits (by decide) (by decide) hd
  have hvalue : Nat.ofDigitChars 10 (Nat.toDigits 10 n.toInt.natAbs) 0 = n.toInt.natAbs :=
    Nat.ofDigitChars_ten_toDigits
  have hlo := n.minValue_le_toInt
  have hhi := n.toInt_le
  rw [word?, String.toList_ofList]
  cases hc : Nat.toDigits 10 n.toInt.natAbs with
  | nil => exact absurd hc Nat.toDigits_ne_nil
  | cons c cs =>
    rw [hc] at hdigits hvalue
    have hint : Int.ofNat n.toInt.natAbs = n.toInt := by
      rw [Int.ofNat_eq_natCast]
      omega
    rw [integer?_digits (hdigits c List.mem_cons_self)
      fun d hd => hdigits d (List.mem_cons_of_mem _ hd), hvalue, hint]
    dsimp only
    rw [if_pos ⟨hlo, hhi⟩, Int32.ofInt_toInt]

end Literal

/-! ## Trees that are read -/

theorem Lexeme.digits {w rest : List Char} (h : Lexeme .integer w rest) :
    ∃ c cs, w = c :: cs ∧ c.isDigit = true ∧ ∀ d ∈ cs, d.isDigit = true := by
  generalize hk : Kind.integer = k at h
  cases h with
  | @number c cs _ hc hcs => exact ⟨c, cs, rfl, hc, hcs⟩
  | word => exact absurd hk.symm (Kind.ofWord_ne_integer _)
  | symbol hsym =>
    subst hk
    exact absurd (Kind.ofSymbol?_eq_some hsym).1 (by decide)

theorem Lexeme.isName {w rest : List Char} (h : Lexeme .identifier w rest) :
    IsName (String.ofList w) := by
  generalize hk : Kind.identifier = k at h
  cases h with
  | number => cases hk
  | @word c cs _ hc hcs =>
    exact ⟨c, cs, String.toList_ofList, hc, hcs, Kind.ofWord_eq_identifier_iff.1 hk.symm⟩
  | symbol hsym =>
    subst hk
    exact absurd (Kind.ofSymbol?_eq_some hsym).1 (by decide)

/-- A token of a text that is an expression by itself is one that can be written. -/
theorem Token.FromText.printableLeaf {t : Token} {e : Expr} (h : t.FromText)
    (he : t.atom? = some e) : e.PrintableLeaf := by
  obtain ⟨w, rest, hw, hs⟩ := h.resolve_left (Token.ne_eof_of_atom? he)
  rcases Token.atom?_eq_some he with ⟨hk, n, hn, rfl⟩ | ⟨b, hk, rfl⟩ | ⟨hk, rfl⟩
  · rw [hk] at hw
    obtain ⟨c, cs, rfl, hc, hcs⟩ := hw.digits
    exact Literal.toInt_nonneg_of_digits hc hcs (hs ▸ hn)
  · trivial
  · rw [hk] at hw
    show IsName t.spelling
    rw [hs]
    exact hw.isName

theorem mapError_eq_ok_iff {ε δ α : Type} {f : ε → δ} {x : Except ε α} {a : α} :
    x.mapError f = .ok a ↔ x = .ok a := by
  cases x with
  | error e => exact iff_of_false (fun h => by cases h) (fun h => by cases h)
  | ok b => exact Iff.intro (fun h => by cases h; rfl) (fun h => by cases h; rfl)

/-- A source is read if it is scanned, and if what is scanned is parsed. -/
theorem Source.program_eq_ok_iff {src : Source} {prog : Program} :
    src.program = .ok prog ↔ ∃ ts, src.scan = .ok ts ∧ parse ts = .ok prog := by
  have htokens : ∀ ts, src.tokens = .ok ts ↔ src.scan = .ok ts := fun ts => mapError_eq_ok_iff
  unfold Source.program
  constructor
  · intro h
    cases hs : src.tokens with
    | error f => rw [hs] at h; cases h
    | ok ts => rw [hs] at h; exact ⟨ts, (htokens ts).1 hs, mapError_eq_ok_iff.1 h⟩
  · rintro ⟨ts, hs, hp⟩
    rw [(htokens ts).2 hs]
    exact mapError_eq_ok_iff.2 hp

/-- **What is read can be written.** -/
theorem Source.printable_of_program {src : Source} {prog : Program} (h : src.program = .ok prog) :
    ∀ e ∈ prog, e.Printable := by
  obtain ⟨ts, hscan, hparse⟩ := Source.program_eq_ok_iff.1 h
  obtain ⟨ps, rest, -, rfl, rfl, -⟩ := parse_eq_ok_iff.1 hparse
  intro e he
  obtain ⟨p, hp, rfl⟩ := List.mem_map.1 he
  refine Phrase.sortedOver fun t ht e he => Token.FromText.printableLeaf ?_ he
  exact Cursor.fromText_of_mem_scan hscan
    (List.mem_append_left _ (List.mem_flatMap.2 ⟨p, hp, ht⟩))

theorem Source.wellSorted_of_program {src : Source} {prog : Program} (h : src.program = .ok prog) :
    ∀ e ∈ prog, e.WellSorted :=
  fun e he => (Source.printable_of_program h e he).wellSorted

end Reckon

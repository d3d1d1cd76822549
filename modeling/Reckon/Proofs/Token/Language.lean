import Reckon.Proofs.Token.Lexeme

/-!
# The tokens and gaps of the language

What may stand in a text, said without reading it: how tokens are written, and what gaps are made
of. A lexeme is a token that the next character does not make longer.

* `Written k w`: `w` is how a token of kind `k` is written.
* `Unextendable w rest`: `w` and the next character begin no token.
* `lexeme_iff`: lexemes are the tokens that cannot be made longer.
* `Gap`, `LastGap`: blanks and comments, between items and at the end of a text.
-/

namespace Reckon

open Token (Kind)

/-! ## Tokens of the language -/

/-- How the tokens of the language are written. -/
inductive Written : Kind → List Char → Prop
  | number {c : Char} {cs : List Char} (hc : c.isDigit = true) (hcs : ∀ d ∈ cs, d.isDigit = true) :
      Written .integer (c :: cs)
  | word {c : Char} {cs : List Char} (hc : isNameStart c = true)
      (hcs : ∀ d ∈ cs, isNamePart d = true) : Written (.ofWord (String.ofList (c :: cs))) (c :: cs)
  | symbol {k : Kind} (hk : k ∈ Kind.symbolic) : Written k k.symbol

/-- The text `w` and the next character of the text after it begin no token. -/
def Unextendable (w rest : List Char) : Prop :=
  ∀ c ∈ rest.head?, ∀ k w', Written k w' → ¬ w ++ [c] <+: w'

/-- Some token begins with the character `c`. -/
def StartsToken (c : Char) : Prop := ∃ k w, Written k (c :: w)

/-- A gap can begin with the character `c`. -/
def StartsGap (c : Char) : Prop := Text.isBlank c = true ∨ c = '#'

namespace Token.Kind

theorem exists_cons_of_mem {k : Kind} (hk : k ∈ symbolic) :
    ∃ c cs, k.symbol = c :: cs ∧ c.isDigit = false ∧ isNameStart c = false := by
  cases hs : k.symbol with
  | nil => exact absurd hs (symbol_ne_nil_of_mem k hk)
  | cons c cs =>
    obtain ⟨hdigit, hname, -⟩ := symbol_head_of_mem k hk c (by rw [hs]; rfl)
    exact ⟨c, cs, rfl, hdigit, hname⟩

/-- What a symbol begins with is a symbol. -/
theorem exists_symbol_of_prefix {k : Kind} (hk : k ∈ symbolic) {w : List Char}
    (hw : w <+: k.symbol) (hne : w ≠ []) : ∃ k' ∈ symbolic, k'.symbol = w := by
  have hall : ∀ k ∈ symbolic, ∀ n < k.symbol.length,
      ∃ k' ∈ symbolic, k'.symbol = k.symbol.take (n + 1) := by
    decide
  have hpos := List.length_pos_iff.2 hne
  have hlen := hw.length_le
  obtain ⟨k', hk', heq⟩ := hall k hk (w.length - 1) (by omega)
  refine ⟨k', hk', ?_⟩
  rw [heq, Nat.sub_add_cancel hpos]
  exact (List.prefix_iff_eq_take.1 hw).symm

/-- A symbol that is read in front of `rest` is the longest one there. -/
theorem not_prefix_of_ofSymbol? {k k' : Kind} {rest : List Char} {c : Char}
    (h : ofSymbol? (k.symbol ++ rest) = some k) (hc : c ∈ rest.head?) (hk' : k' ∈ symbolic) :
    ¬ k.symbol ++ [c] <+: k'.symbol := by
  intro hpre
  obtain ⟨a, ha, hsymbol⟩ := exists_symbol_of_prefix hk' hpre (by simp)
  obtain ⟨rest, rfl⟩ : ∃ cs, rest = c :: cs := by
    cases rest with
    | nil => cases hc
    | cons d cs => cases hc; exact ⟨cs, rfl⟩
  obtain ⟨-, as, bs, hsplit, hbefore⟩ := List.find?_eq_some_iff_append.1 h
  have hmatch : a.symbol.isPrefixOf (k.symbol ++ c :: rest) = true := by
    refine List.isPrefixOf_iff_prefix.2 ⟨rest, ?_⟩
    rw [hsymbol, List.append_assoc]
    rfl
  -- the longer symbol stands behind the one that is found, which it begins with
  have hpair := symbolic_pairwise
  rw [hsplit] at ha hpair
  rcases List.mem_append.1 ha with ha | ha
  · have hnot := hbefore a ha
    rw [hmatch] at hnot
    cases hnot
  · rcases List.mem_cons.1 ha with rfl | ha
    · have hlen := congrArg List.length hsymbol
      simp at hlen
    · rw [List.pairwise_append, List.pairwise_cons] at hpair
      exact hpair.2.1.1 a ha (hsymbol ▸ List.prefix_append _ _)

end Token.Kind

namespace Written

variable {k : Kind} {c : Char} {w : List Char}

/-- The first character of a token tells numbers, words and symbols apart. -/
theorem head_cases (h : Written k (c :: w)) :
    (c.isDigit = true ∧ ∀ d ∈ w, d.isDigit = true) ∨
    (isNameStart c = true ∧ ∀ d ∈ w, isNamePart d = true) ∨
    (k ∈ Kind.symbolic ∧ c :: w = k.symbol ∧ c.isDigit = false ∧ isNameStart c = false) := by
  generalize hcw : c :: w = cw at h
  cases h with
  | number hc hcs => cases hcw; exact .inl ⟨hc, hcs⟩
  | word hc hcs => cases hcw; exact .inr (.inl ⟨hc, hcs⟩)
  | symbol hk =>
    obtain ⟨d, ds, hs, hdigit, hname⟩ := Kind.exists_cons_of_mem hk
    cases hcw.trans hs
    exact .inr (.inr ⟨hk, rfl, hdigit, hname⟩)

/-- A token that begins with a digit is a number. -/
theorem isDigit_of_mem (h : Written k (c :: w)) (hc : c.isDigit = true) :
    ∀ d ∈ w, d.isDigit = true := by
  rcases h.head_cases with ⟨-, hw⟩ | ⟨hname, -⟩ | ⟨-, -, hdigit, -⟩
  · exact hw
  · rw [isDigit_of_isNameStart hname] at hc
    cases hc
  · rw [hdigit] at hc
    cases hc

/-- A token that begins like a name is a word. -/
theorem isNamePart_of_mem (h : Written k (c :: w)) (hc : isNameStart c = true) :
    ∀ d ∈ w, isNamePart d = true := by
  rcases h.head_cases with ⟨hdigit, -⟩ | ⟨-, hw⟩ | ⟨-, -, -, hname⟩
  · rw [isDigit_of_isNameStart hc] at hdigit
    cases hdigit
  · exact hw
  · rw [hname] at hc
    cases hc

/-- A token that begins with a symbol is a symbol. -/
theorem symbol_of_prefix {k' : Kind} (h : Written k w) (hk' : k' ∈ Kind.symbolic)
    (hpre : k'.symbol <+: w) : k ∈ Kind.symbolic ∧ w = k.symbol := by
  obtain ⟨c, cs, hs, hdigit, hname⟩ := Kind.exists_cons_of_mem hk'
  obtain ⟨m, rfl⟩ := hpre
  rw [hs, List.cons_append] at h ⊢
  rcases h.head_cases with ⟨hc, -⟩ | ⟨hc, -⟩ | ⟨hk, hw, -⟩
  · rw [hdigit] at hc
    cases hc
  · rw [hname] at hc
    cases hc
  · exact ⟨hk, hw⟩

end Written

/-- **Maximal munch.** A lexeme is a token of the language that the text after it does not make
longer. -/
theorem lexeme_iff {k : Kind} {w rest : List Char} :
    Lexeme k w rest ↔ Written k w ∧ Unextendable w rest := by
  constructor
  · intro h
    cases h with
    | number hc hcs hrest =>
      refine ⟨.number hc hcs, fun d hd k' w' hw' hpre => hrest d hd ?_⟩
      obtain ⟨m, rfl⟩ := hpre
      exact hw'.isDigit_of_mem hc d (by simp)
    | word hc hcs hrest =>
      refine ⟨.word hc hcs, fun d hd k' w' hw' hpre => hrest d hd ?_⟩
      obtain ⟨m, rfl⟩ := hpre
      exact hw'.isNamePart_of_mem hc d (by simp)
    | symbol hk =>
      have hmem := (Kind.ofSymbol?_eq_some hk).1
      refine ⟨.symbol hmem, fun d hd k' w' hw' hpre => ?_⟩
      obtain ⟨hmem', rfl⟩ := hw'.symbol_of_prefix hmem ((List.prefix_append _ _).trans hpre)
      exact Kind.not_prefix_of_ofSymbol? hk hd hmem' hpre
  · rintro ⟨hw, hmax⟩
    cases hw with
    | @number c cs hc hcs =>
      refine .number hc hcs fun d hd hdigit => hmax d hd _ _ (.number hc ?_) (List.prefix_refl _)
      simpa [or_imp, forall_and] using ⟨hcs, hdigit⟩
    | @word c cs hc hcs =>
      refine .word hc hcs fun d hd hpart => hmax d hd _ _ (.word hc ?_) (List.prefix_refl _)
      simpa [or_imp, forall_and] using ⟨hcs, hpart⟩
    | symbol hk =>
      exact .symbol (Kind.ofSymbol?_append hk fun d hd k' hk' => hmax d hd _ _ (.symbol hk'))

theorem not_startsGap_of_lexeme {k : Kind} {c : Char} {w rest : List Char}
    (h : Lexeme k (c :: w) rest) : ¬ StartsGap c := by
  obtain ⟨d, ds, heq, hblank, hhash⟩ := h.head
  cases heq
  rintro (hc | hc)
  · rw [hblank] at hc
    cases hc
  · exact hhash hc

/-- Where a token begins, there is a lexeme. -/
theorem exists_lexeme {c : Char} (h : StartsToken c) (cs : List Char) :
    ∃ k w rest, c :: cs = w ++ rest ∧ Lexeme k w rest := by
  obtain ⟨k, w, hw⟩ := h
  rcases hw.head_cases with ⟨hc, -⟩ | ⟨hc, -⟩ | ⟨hk, hcw, -⟩
  · obtain ⟨hsplit, hrun, hrest⟩ := takeWhile_spec Char.isDigit cs
    exact ⟨_, _, _, congrArg (c :: ·) hsplit, .number hc hrun hrest⟩
  · obtain ⟨hsplit, hrun, hrest⟩ := takeWhile_spec isNamePart cs
    exact ⟨_, _, _, congrArg (c :: ·) hsplit, .word hc hrun hrest⟩
  · -- the character alone is a symbol, so some symbol is read
    have hpre : [c] <+: k.symbol := ⟨w, hcw⟩
    obtain ⟨k', hk', hs⟩ := Kind.exists_symbol_of_prefix hk hpre (by simp)
    cases hfound : Kind.ofSymbol? (c :: cs) with
    | none =>
      have hnot := List.find?_eq_none.1 hfound k' hk'
      rw [hs] at hnot
      simp at hnot
    | some k'' =>
      obtain ⟨-, htext⟩ := Kind.ofSymbol?_eq_some hfound
      exact ⟨k'', k''.symbol, _, htext, .symbol (htext ▸ hfound)⟩

/-! ## Gaps -/

/-- Blanks, and comments up to the end of their line. -/
inductive Gap : List Char → Prop
  | nil : Gap []
  | blank {c : Char} {g : List Char} (hc : Text.isBlank c = true) (h : Gap g) : Gap (c :: g)
  | comment {body g : List Char} (hbody : '\n' ∉ body) (h : Gap g) :
      Gap ('#' :: body ++ '\n' :: g)

/-- The gap at the end of a text, where the last comment may end with the text. -/
inductive LastGap : List Char → Prop
  | closed {g : List Char} (h : Gap g) : LastGap g
  | comment {g body : List Char} (h : Gap g) (hbody : '\n' ∉ body) : LastGap (g ++ '#' :: body)

private theorem spanGap_comment {body : List Char} (hbody : '\n' ∉ body) (rest : List Char) :
    spanGap true (body ++ '\n' :: rest) =
      (body ++ '\n' :: (spanGap false rest).1, (spanGap false rest).2) := by
  induction body with
  | nil => rfl
  | cons c body ih =>
    rw [List.mem_cons, not_or] at hbody
    simp [spanGap, Ne.symm hbody.1, ih hbody.2]

private theorem spanGap_openComment {body : List Char} (hbody : '\n' ∉ body) :
    spanGap true body = (body, []) := by
  induction body with
  | nil => rfl
  | cons c body ih =>
    rw [List.mem_cons, not_or] at hbody
    simp [spanGap, Ne.symm hbody.1, ih hbody.2]

namespace Cursor

theorem skipGap_gap {g : List Char} (h : Gap g) (loc : Location) (rest : List Char) :
    (⟨loc, g ++ rest⟩ : Cursor).skipGap = (⟨loc.afterAll g, rest⟩ : Cursor).skipGap := by
  induction h generalizing loc with
  | nil => rfl
  | blank hc _ ih => exact (skipGap_blank hc).trans (ih _)
  | @comment body g hbody _ ih =>
    have hspan := spanGap_comment hbody (g ++ rest)
    calc (⟨loc, '#' :: body ++ '\n' :: g ++ rest⟩ : Cursor).skipGap
      _ = (⟨loc.afterAll ('#' :: body ++ ['\n']), g ++ rest⟩ : Cursor).skipGap := by
        simp [skipGap, spanGap, skip, hspan, Location.afterAll_append]
      _ = (⟨(loc.afterAll ('#' :: body ++ ['\n'])).afterAll g, rest⟩ : Cursor).skipGap := ih _
      _ = (⟨loc.afterAll ('#' :: body ++ '\n' :: g), rest⟩ : Cursor).skipGap := by
        simp [Location.afterAll_append]

theorem skipGap_lastGap {g : List Char} (h : LastGap g) (loc : Location) :
    (⟨loc, g⟩ : Cursor).skipGap = ⟨loc.afterAll g, []⟩ := by
  cases h with
  | closed h =>
    have hskip := skipGap_gap h loc []
    rw [List.append_nil] at hskip
    exact hskip
  | comment h hbody =>
    rw [skipGap_gap h, Location.afterAll_append]
    simp [skipGap, spanGap, skip, spanGap_openComment hbody]

end Cursor

end Reckon

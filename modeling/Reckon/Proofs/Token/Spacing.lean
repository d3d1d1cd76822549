import Mathlib.Data.List.Chain
import Reckon.Proofs.Joining

/-!
# Spaced words

A text in which given words stand in order, with a gap in front of each and one at the end. The gaps
may be empty between words that begin no longer token together. Such a text is read as these words.

* `Spaced ws text`: `text` is the words `ws` with gaps.
* `Written.not_startsGap`: no token holds a character that a gap can begin with.
* `Spaced.decomposes`: the words are the items of the text.
* `Spaced.exists_program`: so its program, up to locations, is what is parsed from the words.
-/

namespace Reckon

open Token (Kind)

/-- The text is the words in turn, with a gap in front of each, and a last gap. -/
inductive Spaced : List (Kind × List Char) → List Char → Prop
  | last {g : List Char} (h : LastGap g) : Spaced [] g
  | word {x : Kind × List Char} {ws : List (Kind × List Char)} {g text : List Char} (hg : Gap g)
      (h : Spaced ws text) : Spaced (x :: ws) (g ++ x.2 ++ text)

/-- The token that a word is, at no particular place. -/
def tokenOfWord (x : Kind × List Char) : Token := ⟨x.1, String.ofList x.2, .nowhere⟩

/-! ## Gaps and tokens -/

theorem not_startsGap_of_isDigit {c : Char} (hc : c.isDigit = true) : ¬StartsGap c := by
  rintro (hblank | rfl)
  · rw [Text.isBlank_of_isDigit hc] at hblank
    cases hblank
  · cases hc

theorem not_startsGap_of_isNamePart {c : Char} (hc : isNamePart c = true) : ¬StartsGap c := by
  rcases Bool.or_eq_true_iff.1 hc with hstart | hdigit
  · rintro (hblank | rfl)
    · rw [isBlank_of_isNameStart hstart] at hblank
      cases hblank
    · cases hc
  · exact not_startsGap_of_isDigit hdigit

theorem Written.ne_nil {k : Kind} {w : List Char} (h : Written k w) : w ≠ [] := by
  cases h with
  | number | word => exact List.cons_ne_nil _ _
  | symbol hk => exact Kind.symbol_ne_nil_of_mem _ hk

/-- No token holds a character that a gap can begin with. -/
theorem Written.not_startsGap {k : Kind} {w : List Char} (h : Written k w) :
    ∀ c ∈ w, ¬StartsGap c := by
  cases h with
  | number hc hcs =>
    intro d hd
    rcases List.mem_cons.1 hd with rfl | hd
    · exact not_startsGap_of_isDigit hc
    · exact not_startsGap_of_isDigit (hcs d hd)
  | word hc hcs =>
    intro d hd
    rcases List.mem_cons.1 hd with rfl | hd
    · exact not_startsGap_of_isNamePart (Bool.or_eq_true_iff.2 (.inl hc))
    · exact not_startsGap_of_isNamePart (hcs d hd)
  | symbol hk =>
    have hall : Kind.symbolic.all (fun k => k.symbol.all fun c =>
        !Text.isBlank c && c != '#') = true := by
      decide
    intro c hc
    have hpair := List.all_eq_true.1 (List.all_eq_true.1 hall _ hk) c hc
    rw [Bool.and_eq_true, Bool.not_eq_true', bne_iff_ne] at hpair
    rintro (hblank | hhash)
    · rw [hpair.1] at hblank
      cases hblank
    · exact hpair.2 hhash

theorem Gap.startsGap {c : Char} {g : List Char} (h : Gap (c :: g)) : StartsGap c := by
  cases h with
  | blank hc => exact .inl hc
  | comment => exact .inr rfl

theorem LastGap.startsGap {c : Char} {g : List Char} (h : LastGap (c :: g)) : StartsGap c := by
  generalize hcg : c :: g = text at h
  cases h with
  | closed h =>
    rw [← hcg] at h
    exact h.startsGap
  | @comment g' body h =>
    cases g' with
    | nil =>
      cases hcg
      exact .inr rfl
    | cons d ds =>
      cases hcg
      exact h.startsGap

/-- A gap makes no token longer. -/
theorem unextendable_of_startsGap {w rest : List Char} (h : ∀ c ∈ rest.head?, StartsGap c) :
    Unextendable w rest := by
  intro c hc k w' hw' hpre
  exact hw'.not_startsGap c (hpre.subset (by simp)) (h c hc)

/-! ## Texts -/

namespace Spaced

variable {ws : List (Kind × List Char)} {text : List Char}

/-- A word that its next word does not make longer stays as it is in front of the text. -/
theorem unextendable (h : Spaced ws text) (hne : ∀ x ∈ ws, x.2 ≠ []) {w : List Char}
    (hw : ∀ x ∈ ws.head?, Unextendable w x.2) : Unextendable w text := by
  cases h with
  | last hg =>
    refine unextendable_of_startsGap fun c hc => ?_
    obtain ⟨g, rfl⟩ := List.head?_eq_some_iff.1 hc
    exact hg.startsGap
  | @word x ws g text hg h =>
    cases g with
    | nil =>
      -- the next character is the first one of the next word
      have hhead : ([] ++ x.2 ++ text).head? = x.2.head? := by
        cases hx : x.2 with
        | nil => exact absurd hx (hne x List.mem_cons_self)
        | cons d ds => rfl
      intro c hc
      rw [hhead] at hc
      exact hw x rfl c hc
    | cons d ds =>
      refine unextendable_of_startsGap fun c hc => ?_
      cases hc
      exact hg.startsGap

/-- **The items of the text are the words.** -/
theorem decomposes (h : Spaced ws text) (hwritten : ∀ x ∈ ws, Written x.1 x.2)
    (hapart : ws.IsChain fun x y => Unextendable x.2 y.2) :
    ∃ segs g, Decomposes segs g text ∧
      segs.map Segment.item = ws.map fun x => .token x.1 x.2 := by
  induction h with
  | @last g hg => exact ⟨[], g, .last hg, rfl⟩
  | @word x ws g text hg h ih =>
    have hx := hwritten x List.mem_cons_self
    have hws : ∀ y ∈ ws, Written y.1 y.2 := fun y hy => hwritten y (List.mem_cons_of_mem x hy)
    have hne : ∀ y ∈ ws, y.2 ≠ [] := fun y hy => (hws y hy).ne_nil
    rw [List.isChain_cons] at hapart
    obtain ⟨segs, g', hd, hitems⟩ := ih hws hapart.2
    have hfits : Segment.Fits ⟨g, .token x.1 x.2⟩ text :=
      ⟨hg, hx, h.unextendable hne fun y hy => hapart.1 y hy⟩
    exact ⟨⟨g, .token x.1 x.2⟩ :: segs, g', .segment hfits hd, by rw [List.map_cons, hitems]; rfl⟩

/-- **The program of the text** is what is parsed from the words, up to locations. -/
theorem exists_program (h : Spaced ws text) (hwritten : ∀ x ∈ ws, Written x.1 x.2)
    (hapart : ws.IsChain fun x y => Unextendable x.2 y.2) {p : Program}
    (hp : parse (ws.map tokenOfWord ++ [.eofAt .nowhere]) = .ok p) (name : String) :
    ∃ q, (⟨name, text, .clean⟩ : Source).program = .ok q ∧ q.map Expr.unlocated = p := by
  obtain ⟨segs, g, hd, hitems⟩ := h.decomposes hwritten hapart
  have hscan := hd.scan_unlocated name
  have hresults : (segs.map Segment.item).map (Item.result .nowhere) =
      (ws.map tokenOfWord).map .ok := by
    rw [hitems, List.map_map, List.map_map]
    rfl
  have hok : ((ws.map tokenOfWord).map Except.ok ++ [Except.ok (Token.eofAt .nowhere)]).mapM id =
      (.ok (ws.map tokenOfWord ++ [.eofAt .nowhere]) : Except (Located ScanError) (List Token)) :=
    mapM_id_eq_ok_iff.2 (by simp)
  rw [hresults, hok] at hscan
  obtain ⟨ts, hts, hunlocated⟩ := unlocatedResult_eq_ok hscan
  have hparse := parse_unlocated ts
  rw [hunlocated, hp] at hparse
  obtain ⟨q, hq, hqp⟩ := unlocatedResult_eq_ok hparse.symm
  exact ⟨q, Source.program_eq_ok_iff.2 ⟨ts, hts, hq⟩, hqp⟩

end Spaced

end Reckon

import Reckon.Proofs.Token.Decomposition
import Reckon.Proofs.Unlocated

/-!
# Joined sources

Two sources with a line feed between them are read as the items of the first and then the items of
the second: a line feed is part of no token and ends every comment. They are parsed as the two
programs in a row if nothing at the beginning of the second goes on an expression of the first.

* `Source.join`: one source after another.
* `Decomposes.join`: the decomposition of joined texts.
* `parse_append`: parsing joined tokens.
* `Source.program_join`: the program of joined sources, up to locations.
-/

namespace Reckon

open Token (Kind)

/-- The second source on a new line after the first, under a new name. -/
def Source.join (name : String) (src₁ src₂ : Source) : Source :=
  ⟨name, src₁.chars ++ '\n' :: src₂.chars, src₂.ending⟩

/-! ## Texts -/

/-- No token holds a line feed. -/
theorem Written.newline_notMem {k : Kind} {w : List Char} (h : Written k w) : '\n' ∉ w := by
  cases h with
  | number hc hcs =>
    intro hmem
    rcases List.mem_cons.1 hmem with rfl | hmem
    · cases hc
    · cases hcs _ hmem
  | word hc hcs =>
    intro hmem
    rcases List.mem_cons.1 hmem with rfl | hmem
    · cases hc
    · cases hcs _ hmem
  | symbol hk =>
    have hall : ∀ k ∈ Kind.symbolic, '\n' ∉ k.symbol := by decide
    exact hall _ hk

/-- A line feed behind the text does not make a token longer. -/
theorem Unextendable.append_newline {w rest : List Char} (h : Unextendable w rest)
    (text : List Char) : Unextendable w (rest ++ '\n' :: text) := by
  cases rest with
  | nil =>
    rintro c ⟨⟩ k w' hw' hpre
    exact hw'.newline_notMem (hpre.subset (by simp))
  | cons d ds => exact h

theorem Gap.append {g g' : List Char} (h : Gap g) (h' : Gap g') : Gap (g ++ g') := by
  induction h with
  | nil => exact h'
  | blank hc _ ih => exact .blank hc ih
  | comment hbody _ ih =>
    rw [List.append_assoc]
    exact .comment hbody ih

/-- A line feed ends the last comment of a text. -/
theorem LastGap.append_newline {g g' : List Char} (h : LastGap g) (h' : Gap g') :
    Gap (g ++ '\n' :: g') := by
  cases h with
  | closed h => exact h.append (.blank (by decide) h')
  | comment h hbody =>
    rw [List.append_assoc]
    exact h.append (.comment hbody h')

/-- **Joined texts.** Their items are those of the first and then those of the second. -/
theorem Decomposes.join {segs₁ segs₂ : List Segment} {g₁ g₂ text₁ text₂ : List Char}
    (h₁ : Decomposes segs₁ g₁ text₁) (h₂ : Decomposes segs₂ g₂ text₂) :
    ∃ segs g, Decomposes segs g (text₁ ++ '\n' :: text₂) ∧
      segs.map Segment.item = (segs₁ ++ segs₂).map Segment.item := by
  induction h₁ with
  | @last g₁ hg =>
    have hfront : ∀ {g}, Gap g → Gap ((g₁ ++ ['\n']) ++ g) := fun {g} hgap => by
      rw [List.append_assoc]
      exact hg.append_newline hgap
    have hjoin := h₂.exists_append (g₁ ++ ['\n']) hfront
    rw [List.append_assoc] at hjoin
    exact hjoin
  | @segment s segs₁ _ rest hs _ ih =>
    obtain ⟨segs, g, h, hitems⟩ := ih
    have hfits : s.Fits (rest ++ '\n' :: text₂) := by
      refine ⟨hs.gap, ?_⟩
      have hitem := hs.item
      cases hi : s.item with
      | token k w =>
        rw [hi] at hitem
        exact ⟨hitem.1, hitem.2.append_newline text₂⟩
      | invalid c =>
        rw [hi] at hitem
        exact hitem
    refine ⟨s :: segs, g, ?_, congrArg (s.item :: ·) hitems⟩
    rw [List.append_assoc]
    exact .segment hfits h

/-! ## Tokens -/

theorem mapM_id_unlocated {ε α : Type} (f : α → α) (rs : List (Except (Located ε) α)) :
    unlocatedResult (List.map f) (rs.mapM id) = (rs.map (unlocatedResult f)).mapM id := by
  induction rs with
  | nil => rfl
  | cons r rs ih =>
    rw [List.map_cons, List.mapM_cons, List.mapM_cons, ← ih]
    cases r with
    | error e => rfl
    | ok a => cases rs.mapM id <;> rfl

theorem readings_unlocated (name : String) (before : List Char) (segs : List Segment) :
    (readings name before segs).map (unlocatedResult Token.unlocated) =
      (segs.map Segment.item).map (Item.result .nowhere) := by
  induction segs generalizing before with
  | nil => rfl
  | cons s segs ih =>
    rw [readings, List.map_cons, ih]
    cases hi : s.item with
    | token | invalid => simp [hi, Item.result, unlocatedResult, Token.unlocated, Located.unlocated]

/-- Up to locations, the tokens of a text are its items, which must all be tokens, and the end. -/
theorem Decomposes.scan_unlocated {segs : List Segment} {g text : List Char}
    (h : Decomposes segs g text) (name : String) :
    unlocatedResult (List.map Token.unlocated) (Source.scan ⟨name, text, .clean⟩) =
      ((segs.map Segment.item).map (Item.result .nowhere) ++
        [Except.ok (Token.eofAt .nowhere)]).mapM id := by
  have hscan : Source.scan ⟨name, text, .clean⟩ = _ := h.scan_eq name []
  rw [hscan, mapM_id_unlocated, List.map_append, readings_unlocated]
  rfl

theorem Decomposes.ne_eof {segs : List Segment} {g text : List Char} (h : Decomposes segs g text) :
    ∀ s ∈ segs, ∀ loc t, s.item.result loc = .ok t → t.kind ≠ .eof := by
  induction h with
  | last => simp
  | segment hs _ ih =>
    intro s hmem loc t ht
    rcases List.mem_cons.1 hmem with rfl | hmem
    · exact Item.result_ne_eof hs.item ht
    · exact ih s hmem loc t ht

/-- The tokens of a text that can be scanned are its items, up to locations, and the end. -/
theorem Decomposes.items_of_scan {segs : List Segment} {g text : List Char} {name : String}
    {ts : List Token} (h : Decomposes segs g text)
    (hscan : Source.scan ⟨name, text, .clean⟩ = .ok ts) :
    ∃ us, ts.map Token.unlocated = us ++ [.eofAt .nowhere] ∧ (∀ t ∈ us, t.kind ≠ .eof) ∧
      (segs.map Segment.item).map (Item.result .nowhere) = us.map .ok := by
  have hall := h.scan_unlocated name
  rw [hscan] at hall
  have hts := (mapM_id_eq_ok_iff.1 hall.symm).symm
  obtain ⟨us, vs, happend, hus, hvs⟩ := List.map_eq_append_iff.1 hts
  obtain ⟨v, rfl, hv⟩ := List.map_eq_singleton_iff.1 hvs
  cases hv
  refine ⟨us, happend, fun t ht => ?_, hus.symm⟩
  have hmem : Except.ok t ∈ (segs.map Segment.item).map (Item.result .nowhere) := by
    rw [← hus]
    exact List.mem_map_of_mem ht
  obtain ⟨i, hi, hresult⟩ := List.mem_map.1 hmem
  obtain ⟨s, hs, rfl⟩ := List.mem_map.1 hi
  exact h.ne_eof s hs _ t hresult

/-- **Joined tokens.** Up to locations, they are the tokens of the two sources in a row. -/
theorem Source.scan_join (name : String) {src₁ src₂ : Source} {ts₁ ts₂ : List Token}
    (h₁ : src₁.scan = .ok ts₁) (h₂ : src₂.scan = .ok ts₂) :
    ∃ us₁ us₂ ts, ts₁.map Token.unlocated = us₁ ++ [.eofAt .nowhere] ∧
      ts₂.map Token.unlocated = us₂ ++ [.eofAt .nowhere] ∧
      (∀ t ∈ us₁, t.kind ≠ .eof) ∧ (∀ t ∈ us₂, t.kind ≠ .eof) ∧
      (src₁.join name src₂).scan = .ok ts ∧
      ts.map Token.unlocated = us₁ ++ us₂ ++ [.eofAt .nowhere] := by
  obtain ⟨name₁, text₁, ending₁⟩ := src₁
  obtain ⟨name₂, text₂, ending₂⟩ := src₂
  obtain rfl : ending₁ = .clean := Cursor.ending_eq_of_scan h₁
  obtain rfl : ending₂ = .clean := Cursor.ending_eq_of_scan h₂
  obtain ⟨segs₁, g₁, hd₁⟩ := exists_decomposes text₁
  obtain ⟨segs₂, g₂, hd₂⟩ := exists_decomposes text₂
  obtain ⟨us₁, hts₁, hne₁, hus₁⟩ := hd₁.items_of_scan h₁
  obtain ⟨us₂, hts₂, hne₂, hus₂⟩ := hd₂.items_of_scan h₂
  obtain ⟨segs, g, hd, hitems⟩ := hd₁.join hd₂
  have hscan := hd.scan_unlocated name
  rw [hitems, List.map_append, List.map_append, hus₁, hus₂, ← List.map_append] at hscan
  have hok : (List.map Except.ok (us₁ ++ us₂) ++ [Except.ok (Token.eofAt .nowhere)]).mapM id =
      (.ok (us₁ ++ us₂ ++ [.eofAt .nowhere]) : Except (Located ScanError) (List Token)) :=
    mapM_id_eq_ok_iff.2 (by simp)
  obtain ⟨ts, hts, hunlocated⟩ := unlocatedResult_eq_ok (hscan.trans hok)
  exact ⟨us₁, us₂, ts, hts₁, hts₂, hne₁, hne₂, hts, hunlocated⟩

/-! ## Programs -/

/-- Two sentences in a row, the second of which starts with a token that cannot extend an
expression. -/
theorem Sentence.append {c : Precedence} {ps qs : List Phrase} (hp : Sentence c ps)
    (hq : Sentence c qs) (hseam : ps = [] ∨ c.power (headKind (qs.flatMap Phrase.yield)) = -1) :
    Sentence c (ps ++ qs) where
  ordered p hmem := (List.mem_append.1 hmem).elim (hp.ordered p) (hq.ordered p)
  apart p hmem := by
    cases ps with
    | nil => exact hq.apart p hmem
    | cons p₀ ps =>
      rcases List.mem_append.1 hmem with hmem | hmem
      · exact hp.apart p hmem
      · cases qs with
        | nil => cases hmem
        | cons q qs =>
          rcases List.mem_cons.1 hmem with rfl | hmem
          · have hhead := hseam.resolve_left (List.cons_ne_nil _ _)
            rw [List.flatMap_cons, p.headKind_yield_append] at hhead
            exact hhead
          · exact hq.apart p hmem

/-- **Joined programs.** -/
theorem parse_append {us₁ us₂ : List Token} {p₁ p₂ : Program} {fin : Token}
    (h₁ : parse (us₁ ++ [fin]) = .ok p₁) (h₂ : parse (us₂ ++ [fin]) = .ok p₂)
    (hne₁ : ∀ t ∈ us₁, t.kind ≠ .eof) (hne₂ : ∀ t ∈ us₂, t.kind ≠ .eof) (hfin : fin.kind = .eof)
    (hseam : p₁ = [] ∨ (headKind us₂).power = Kind.leastPower) :
    parse (us₁ ++ us₂ ++ [fin]) = .ok (p₁ ++ p₂) := by
  obtain ⟨ps₁, rest₁, hs₁, hy₁, rfl, hrest₁⟩ := parse_eq_ok_iff.1 h₁
  obtain ⟨ps₂, rest₂, hs₂, hy₂, rfl, hrest₂⟩ := parse_eq_ok_iff.1 h₂
  obtain ⟨rfl, -⟩ := eq_of_append_eof hne₁ (fun _ => ne_eof_of_mem_sentence) hfin hrest₁ hy₁
  obtain ⟨rfl, -⟩ := eq_of_append_eof hne₂ (fun _ => ne_eof_of_mem_sentence) hfin hrest₂ hy₂
  have hs := hs₁.append hs₂
    (hseam.imp List.map_eq_nil_iff.1 (Kind.power_eq_standard _ ▸ ·))
  exact parse_eq_ok_iff.2 ⟨ps₁ ++ ps₂, [fin], hs, by simp, by simp, hfin⟩

theorem headKind_unlocated (ts : List Token) :
    headKind (ts.map Token.unlocated) = headKind ts := by
  cases ts <;> rfl

/-- **Joined sources.** Up to locations, their program is the two programs in a row. -/
theorem Source.program_join (name : String) {src₁ src₂ : Source} {p₁ p₂ : Program}
    {ts₂ : List Token} (h₁ : src₁.program = .ok p₁) (h₂ : src₂.program = .ok p₂)
    (hts₂ : src₂.scan = .ok ts₂) (hseam : p₁ = [] ∨ (headKind ts₂).power = Kind.leastPower) :
    ∃ p, (src₁.join name src₂).program = .ok p ∧
      p.map Expr.unlocated = (p₁ ++ p₂).map Expr.unlocated := by
  obtain ⟨ts₁, hts₁, hparse₁⟩ := Source.program_eq_ok_iff.1 h₁
  obtain ⟨ts₂', hts₂', hparse₂⟩ := Source.program_eq_ok_iff.1 h₂
  cases hts₂.symm.trans hts₂'
  obtain ⟨us₁, us₂, ts, hus₁, hus₂, hne₁, hne₂, hscan, hts⟩ := Source.scan_join name hts₁ hts₂
  have hu₁ := parse_unlocated ts₁
  have hu₂ := parse_unlocated ts₂
  rw [hparse₁, hus₁] at hu₁
  rw [hparse₂, hus₂] at hu₂
  have hhead : headKind us₂ = headKind ts₂ := by
    rw [← headKind_unlocated ts₂, hus₂]
    cases us₂ <;> rfl
  have hseam' : p₁.map Expr.unlocated = [] ∨ (headKind us₂).power = Kind.leastPower := by
    rw [hhead, List.map_eq_nil_iff]
    exact hseam
  have hjoined := parse_append hu₁ hu₂ hne₁ hne₂ rfl hseam'
  rw [← hts, parse_unlocated] at hjoined
  obtain ⟨p, hp, hmap⟩ := unlocatedResult_eq_ok hjoined
  exact ⟨p, Source.program_eq_ok_iff.2 ⟨ts, hscan, hp⟩, hmap.trans List.map_append.symm⟩

end Reckon

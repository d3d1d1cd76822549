import Reckon.Proofs.Token.Decomposition

/-!
# Where tokens stand

A token of a source stands somewhere in its text, as an item of the decomposition, and its location
is the line and the column there. So does a character that no token begins with, and scanning fails
at the first of these.

* `Item.StandsIn`: an item of a text, and the part of the text in front of it.
* `Token.StandsIn`: a token of a source.
* `Source.standsIn_of_scan`: all tokens but the end of the input stand in the text.
* `Source.scan_error`: scanning fails at the first invalid character.
-/

namespace Reckon

/-- The item stands in the text behind the characters `before`. -/
def Item.StandsIn (text before : List Char) (i : Item) : Prop :=
  ∃ front gap back last, Decomposes (front ++ ⟨gap, i⟩ :: back) last text ∧
    before = front.flatMap Segment.chars ++ gap

/-- The token is written in the text of the source `name`, at its location. -/
def Token.StandsIn (name : String) (text : List Char) (t : Token) : Prop :=
  ∃ before w, (Item.token t.kind w).StandsIn text before ∧ t.spelling = String.ofList w ∧
    t.loc = .behind name before

/-- The character `c` stands in the text behind the characters `before`, as the first one that
begins neither a gap nor a token. -/
def FirstInvalid (text before : List Char) (c : Char) : Prop :=
  ∃ front gap back last, Decomposes (front ++ ⟨gap, .invalid c⟩ :: back) last text ∧
    (∀ s ∈ front, ∃ k w, s.item = .token k w) ∧ before = front.flatMap Segment.chars ++ gap

variable {name : String} {text : List Char}

/-- A reading is one of the segment at its place. -/
theorem exists_segment_of_readings {before : List Char} {segs : List Segment}
    {rs rs' : List (Except (Located ScanError) Token)} {r : Except (Located ScanError) Token}
    (h : readings name before segs = rs ++ r :: rs') :
    ∃ front s back, segs = front ++ s :: back ∧ readings name before front = rs ∧
      r = s.item.result (.behind name (before ++ front.flatMap Segment.chars ++ s.gap)) := by
  induction rs generalizing before segs with
  | nil =>
    cases segs with
    | nil => cases h
    | cons s segs =>
      obtain ⟨rfl, -⟩ := List.cons.inj h
      refine ⟨[], s, segs, rfl, rfl, ?_⟩
      rw [List.flatMap_nil, List.append_nil]
  | cons r' rs ih =>
    cases segs with
    | nil => cases h
    | cons s segs =>
      obtain ⟨rfl, hrest⟩ := List.cons.inj h
      obtain ⟨front, s', back, rfl, rfl, hr⟩ := ih hrest
      refine ⟨s :: front, s', back, rfl, rfl, ?_⟩
      rw [hr, List.flatMap_cons, List.append_assoc before]

/-- Segments that are read as tokens are tokens. -/
theorem token_of_readings {before : List Char} {segs : List Segment} {ts : List Token}
    (h : readings name before segs = ts.map .ok) : ∀ s ∈ segs, ∃ k w, s.item = .token k w := by
  induction segs generalizing before ts with
  | nil => exact fun s hs => absurd hs List.not_mem_nil
  | cons s segs ih =>
    cases ts with
    | nil => cases h
    | cons t ts =>
      obtain ⟨hresult, hrest⟩ := List.cons.inj h
      have hfirst : ∃ k w, s.item = .token k w := by
        cases hi : s.item with
        | token k w => exact ⟨k, w, rfl⟩
        | invalid c => rw [hi] at hresult; cases hresult
      intro s' hs'
      rcases List.mem_cons.1 hs' with rfl | hs'
      · exact hfirst
      · exact ih hrest s' hs'

namespace Source

/-- **Tokens stand in the text**, all but the end of the input, which is scanned behind it. -/
theorem standsIn_of_scan {ts : List Token} (h : Source.scan ⟨name, text, .clean⟩ = .ok ts) :
    ts ≠ [] ∧ ∀ t ∈ ts, t = .eofAt (.behind name text) ∨ t.StandsIn name text := by
  obtain ⟨segs, last, hsegs⟩ := exists_decomposes text
  have hscan : Source.scan ⟨name, text, .clean⟩ = _ := hsegs.scan_eq name []
  have hts := mapM_id_eq_ok_iff.1 (hscan.symm.trans h)
  refine ⟨?_, fun t ht => ?_⟩
  · rintro rfl
    exact absurd hts (List.append_ne_nil_of_right_ne_nil _ (List.cons_ne_nil _ _))
  · have hmem : Except.ok t ∈ readings name [] segs ++ [_] := hts ▸ List.mem_map_of_mem ht
    rcases List.mem_append.1 hmem with hmem | hmem
    · obtain ⟨rs, rs', hrs⟩ := List.append_of_mem hmem
      obtain ⟨front, ⟨gap, i⟩, back, rfl, -, hresult⟩ := exists_segment_of_readings hrs
      cases i with
      | token k w =>
        cases hresult
        exact .inr ⟨_, w, ⟨front, gap, back, last, hsegs, rfl⟩, rfl, rfl⟩
      | invalid c => cases hresult
    · cases List.mem_singleton.1 hmem
      exact .inl rfl

/-- **Scanning fails at the first invalid character.** -/
theorem scan_error {e : Located ScanError} (h : Source.scan ⟨name, text, .clean⟩ = .error e) :
    ∃ before c, FirstInvalid text before c ∧ e = ⟨.behind name before, .invalidCharacter c⟩ := by
  obtain ⟨segs, last, hsegs⟩ := exists_decomposes text
  have hscan : Source.scan ⟨name, text, .clean⟩ = _ := hsegs.scan_eq name []
  obtain ⟨ts, rest, hrs⟩ := mapM_id_eq_error (hscan.symm.trans h)
  -- the last reading is the end of the input, so the failure is one of those before it
  rcases List.eq_nil_or_concat rest with rfl | ⟨rest, r, rfl⟩
  · cases (List.append_inj' hrs rfl).2
  · rw [List.concat_eq_append, ← List.cons_append, ← List.append_assoc] at hrs
    have hreadings := (List.append_inj' hrs rfl).1
    obtain ⟨front, ⟨gap, i⟩, back, rfl, htokens, hresult⟩ := exists_segment_of_readings hreadings
    cases i with
    | token k w => cases hresult
    | invalid c =>
      cases hresult
      exact ⟨_, c, ⟨front, gap, back, last, hsegs, token_of_readings htokens, rfl⟩, rfl⟩

end Source

end Reckon

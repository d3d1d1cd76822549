import Reckon.Proofs.Token.Language

/-!
# Decomposition of texts

A text is a sequence of gaps and items: between two gaps stands a token, or a character that begins
neither a gap nor a token. Nothing is lost, no token can be made longer, and there is one such
sequence for every text, which reading goes through from left to right.

* `Item`, `Segment`: what stands between gaps, and an item with the gap in front of it.
* `Decomposes segs last text`: `text` is cut into the segments `segs` and the gap `last`.
* `exists_decomposes`, `Decomposes.unique`: there is one decomposition of every text.
* `Location.behind`: lines and columns, counted.
* `Source.reads_decomposition`: what is read from a source is its decomposition.
-/

namespace Reckon

open Token (Kind)

/-! ## Items and segments -/

/-- What stands between gaps: a token, or a character that begins none. -/
inductive Item
  | token (kind : Kind) (chars : List Char)
  | invalid (c : Char)

namespace Item

/-- The part of the text that an item is. -/
def chars : Item → List Char
  | token _ w => w
  | invalid c => [c]

/-- What is read where an item stands. -/
def result (loc : Location) : Item → Except (Located ScanError) Token
  | token k w => .ok ⟨k, String.ofList w, loc⟩
  | invalid c => .error ⟨loc, .invalidCharacter c⟩

/-- The item can stand in front of `rest`. -/
def Fits : Item → List Char → Prop
  | token k w, rest => Written k w ∧ Unextendable w rest
  | invalid c, _ => ¬ StartsGap c ∧ ¬ StartsToken c

theorem result_inj {i i' : Item} {loc loc' : Location} (h : i.result loc = i'.result loc') :
    i = i' := by
  cases i with
  | token k w =>
    cases i' with
    | token k' w' =>
      injection h with h
      injection h with hk hw
      rw [hk, String.ofList_injective hw]
    | invalid c => cases h
  | invalid c =>
    cases i' with
    | token k' w' => cases h
    | invalid c' => cases h; rfl

theorem result_ne_eof {i : Item} {rest : List Char} (h : i.Fits rest) {loc : Location} {t : Token}
    (ht : i.result loc = .ok t) : t.kind ≠ .eof := by
  cases i with
  | token k w =>
    cases ht
    exact (lexeme_iff.2 h).ne_eof
  | invalid c => cases ht

/-- An item does not begin like a gap. -/
theorem exists_cons_of_fits {i : Item} {rest : List Char} (h : i.Fits rest) :
    ∃ c cs, i.chars = c :: cs ∧ ¬ StartsGap c := by
  cases i with
  | token k w =>
    have hlexeme := lexeme_iff.2 h
    obtain ⟨c, cs, rfl, -⟩ := hlexeme.head
    exact ⟨c, cs, rfl, not_startsGap_of_lexeme hlexeme⟩
  | invalid c => exact ⟨c, [], rfl, h.1⟩

end Item

/-- Where no gap begins, an item stands. -/
theorem exists_item {c : Char} (hc : ¬ StartsGap c) (cs : List Char) :
    ∃ i rest, Item.Fits i rest ∧ c :: cs = i.chars ++ rest := by
  by_cases h : StartsToken c
  · obtain ⟨k, w, rest, htext, hlexeme⟩ := exists_lexeme h cs
    exact ⟨.token k w, rest, lexeme_iff.1 hlexeme, htext⟩
  · exact ⟨.invalid c, cs, ⟨hc, h⟩, rfl⟩

/-- An item and the gap in front of it. -/
structure Segment where
  gap : List Char
  item : Item

/-- The part of the text that a segment is. -/
def Segment.chars (s : Segment) : List Char := s.gap ++ s.item.chars

/-- The segment can stand in front of `rest`. -/
structure Segment.Fits (s : Segment) (rest : List Char) : Prop where
  gap : Gap s.gap
  item : s.item.Fits rest

namespace Cursor

theorem readToken_invalid {ending : Ending} {c : Char} (h : ¬ StartsToken c) (loc : Location)
    (cs : List Char) : (⟨loc, c :: cs⟩ : Cursor).readToken ending =
      ⟨.error ⟨loc, .invalidCharacter c⟩, ⟨loc.after c, cs⟩⟩ := by
  have hdigit : c.isDigit = false :=
    Bool.eq_false_iff.2 fun hc => h ⟨_, [], .number hc (by simp)⟩
  have hname : isNameStart c = false :=
    Bool.eq_false_iff.2 fun hc => h ⟨_, [], .word hc (by simp)⟩
  have hsymbol : Kind.ofSymbol? (c :: cs) = none := by
    refine Option.eq_none_iff_forall_ne_some.2 fun k hk => ?_
    obtain ⟨hmem, htext⟩ := Kind.ofSymbol?_eq_some hk
    obtain ⟨d, ds, hs, -⟩ := Kind.exists_cons_of_mem hmem
    rw [hs] at htext
    cases (List.cons.inj htext).1
    exact h ⟨k, ds, hs ▸ .symbol hmem⟩
  simp [readToken, hdigit, hname, hsymbol, skip]

/-- Reading starts behind the gap of a segment. -/
theorem skipGap_segment {s : Segment} {rest : List Char} (h : s.Fits rest) (loc : Location) :
    (⟨loc, s.chars ++ rest⟩ : Cursor).skipGap =
      ⟨loc.afterAll s.gap, s.item.chars ++ rest⟩ := by
  obtain ⟨c, cs, hcs, hc⟩ := Item.exists_cons_of_fits h.item
  obtain ⟨hblank, hhash⟩ := not_or.1 hc
  rw [Segment.chars, List.append_assoc, skipGap_gap h.gap, hcs]
  exact skipGap_eq_self (Bool.eq_false_iff.2 hblank) hhash

/-- **Reading a segment.** -/
theorem next_segment {s : Segment} {rest : List Char} (h : s.Fits rest) (loc : Location) :
    (⟨loc, s.chars ++ rest⟩ : Cursor).next .clean =
      ⟨s.item.result (loc.afterAll s.gap), ⟨loc.afterAll s.chars, rest⟩⟩ := by
  rw [next, skipGap_segment h, Segment.chars, Location.afterAll_append]
  have hitem := h.item
  cases hi : s.item with
  | token k w =>
    rw [hi] at hitem
    exact readToken_clean (lexeme_iff.2 hitem) _
  | invalid c =>
    rw [hi] at hitem
    exact readToken_invalid hitem.2 _ _

/-- Reading the gap at the end. -/
theorem next_lastGap {g : List Char} (h : LastGap g) (loc : Location) :
    (⟨loc, g⟩ : Cursor).next .clean =
      ⟨.ok (.eofAt (loc.afterAll g)), ⟨loc.afterAll g, []⟩⟩ := by
  rw [next, skipGap_lastGap h]
  rfl

end Cursor

/-! ## Whole texts -/

/-- The text is the segments in turn, each one in front of the rest of the text, and then the last
gap. -/
inductive Decomposes : List Segment → List Char → List Char → Prop
  | last {g : List Char} (h : LastGap g) : Decomposes [] g g
  | segment {s : Segment} {segs : List Segment} {g rest : List Char} (hs : s.Fits rest)
      (h : Decomposes segs g rest) : Decomposes (s :: segs) g (s.chars ++ rest)

/-- The location behind the text `before`: the lines and the columns in it, counted from one. -/
def Location.behind (name : String) (before : List Char) : Location :=
  ⟨name, 1 + before.count '\n', 1 + (before.reverse.takeWhile (· ≠ '\n')).length⟩

theorem Location.afterAll_start (name : String) (before : List Char) :
    (Location.start name).afterAll before = behind name before := by
  -- the induction is on the text read backwards, as columns are counted
  rw [← List.reverse_reverse before]
  induction before.reverse with
  | nil => rfl
  | cons c cs ih =>
    rw [List.reverse_cons, afterAll_append, ih]
    by_cases hc : c = '\n'
    · subst hc
      simp [behind, after, Int.add_assoc]
    · simp [behind, after, hc, Int.add_assoc]

theorem Location.afterAll_behind (name : String) (before cs : List Char) :
    (Location.behind name before).afterAll cs = behind name (before ++ cs) := by
  rw [← afterAll_start, ← afterAll_append, afterAll_start]

/-- What is read of some segments that stand behind the text `before`. -/
def readings (name : String) (before : List Char) :
    List Segment → List (Except (Located ScanError) Token)
  | [] => []
  | s :: segs =>
    s.item.result (.behind name (before ++ s.gap)) :: readings name (before ++ s.chars) segs

namespace Decomposes

variable {segs segs' : List Segment} {g g' text : List Char}

/-- Nothing is lost. -/
theorem flatMap_chars (h : Decomposes segs g text) : segs.flatMap Segment.chars ++ g = text := by
  induction h with
  | last h => rfl
  | segment hs h ih => rw [List.flatMap_cons, List.append_assoc, ih]

/-- What can stand in front of every gap can stand in front of a text, and adds no item. -/
theorem exists_append (front : List Char) (hfront : ∀ {g}, Gap g → Gap (front ++ g))
    (h : Decomposes segs g text) :
    ∃ segs' g', Decomposes segs' g' (front ++ text) ∧
      segs'.map Segment.item = segs.map Segment.item := by
  cases h with
  | last h =>
    refine ⟨[], _, .last ?_, rfl⟩
    cases h with
    | closed h => exact .closed (hfront h)
    | comment h hbody =>
      rw [← List.append_assoc]
      exact .comment (hfront h) hbody
  | @segment s segs _ rest hs h =>
    have hfirst : Segment.Fits ⟨front ++ s.gap, s.item⟩ rest := ⟨hfront hs.gap, hs.item⟩
    refine ⟨⟨front ++ s.gap, s.item⟩ :: segs, g, ?_, rfl⟩
    rw [Segment.chars, ← List.append_assoc, ← List.append_assoc]
    exact .segment hfirst h

end Decomposes

/-- **Every text has a decomposition.** -/
theorem exists_decomposes (text : List Char) : ∃ segs g, Decomposes segs g text := by
  induction hn : text.length using Nat.strongRecOn generalizing text with
  | ind n ih =>
    subst hn
    cases text with
    | nil => exact ⟨[], [], .last (.closed .nil)⟩
    | cons c cs =>
      by_cases hgap : StartsGap c
      · rcases hgap with hblank | rfl
        · obtain ⟨segs, g, h⟩ := ih cs.length (Nat.lt_succ_self _) cs rfl
          obtain ⟨segs', g', h', -⟩ := h.exists_append [c] (.blank hblank)
          exact ⟨segs', g', h'⟩
        · by_cases hline : '\n' ∈ cs
          · obtain ⟨body, rest, rfl, hbody⟩ := List.eq_append_cons_of_mem hline
            have hlen : rest.length < ('#' :: (body ++ '\n' :: rest)).length := by
              rw [List.length_cons, List.length_append, List.length_cons]
              omega
            obtain ⟨segs, g, h⟩ := ih rest.length hlen rest rfl
            obtain ⟨segs', g', h', -⟩ :=
              h.exists_append ('#' :: body ++ ['\n']) fun {g} hg => by
                rw [List.append_assoc]
                exact .comment hbody hg
            rw [List.append_assoc] at h'
            exact ⟨segs', g', h'⟩
          · exact ⟨[], _, .last (.comment .nil hline)⟩
      · obtain ⟨i, rest, hi, htext⟩ := exists_item hgap cs
        obtain ⟨d, ds, hchars, -⟩ := Item.exists_cons_of_fits hi
        have hlen : rest.length < (c :: cs).length := by
          rw [htext, hchars, List.length_append, List.length_cons]
          omega
        obtain ⟨segs, g, h⟩ := ih rest.length hlen rest rfl
        rw [htext]
        exact ⟨⟨[], i⟩ :: segs, g, .segment ⟨.nil, hi⟩ h⟩

namespace Decomposes

variable {segs segs' : List Segment} {g g' text : List Char}

/-- **A text has one decomposition**, since reading goes through each one. -/
theorem unique (h : Decomposes segs g text) (h' : Decomposes segs' g' text) :
    segs' = segs ∧ g' = g := by
  induction h generalizing segs' g' with
  | last hg =>
    have hlast := Cursor.next_lastGap hg .nowhere
    cases h' with
    | last => exact ⟨rfl, rfl⟩
    | segment hs' =>
      rw [Cursor.next_segment hs'] at hlast
      exact absurd rfl (Item.result_ne_eof hs'.item (congrArg ScanStep.result hlast))
  | @segment s segs g rest hs h ih =>
    have hfirst := Cursor.next_segment hs .nowhere
    generalize htext : s.chars ++ rest = text at h'
    rw [htext] at hfirst
    cases h' with
    | last hg' =>
      rw [Cursor.next_lastGap hg'] at hfirst
      exact absurd rfl (Item.result_ne_eof hs.item (congrArg ScanStep.result hfirst).symm)
    | @segment s' segs' _ rest' hs' h' =>
      rw [Cursor.next_segment hs'] at hfirst
      obtain rfl : rest' = rest := congrArg (·.cursor.rest) hfirst
      obtain ⟨rfl, rfl⟩ := ih h'
      have hitem : s'.item = s.item := Item.result_inj (congrArg ScanStep.result hfirst)
      have hchars : s.chars = s'.chars := List.append_cancel_right htext
      rw [Segment.chars, Segment.chars, hitem] at hchars
      have hgap := List.append_cancel_right hchars
      refine ⟨?_, rfl⟩
      cases s
      cases s'
      cases hitem
      cases hgap
      rfl

/-- Reading goes through the segments one by one, and then stays at the end. -/
theorem steps_eq (h : Decomposes segs g text) (name : String) (before : List Char) (k : Nat) :
    (⟨.behind name before, text⟩ : Cursor).steps .clean (segs.length + k) =
      readings name before segs ++
        List.replicate k (.ok (.eofAt (.behind name (before ++ text)))) := by
  induction h generalizing before with
  | @last g hg =>
    have hend : ∀ (loc : Location) (k : Nat), (⟨loc, []⟩ : Cursor).steps .clean k =
        List.replicate k (.ok (.eofAt loc)) := by
      intro loc k
      induction k with
      | zero => rfl
      | succ k ih =>
        rw [List.replicate_succ, ← ih]
        rfl
    rw [List.length_nil, Nat.zero_add]
    cases k with
    | zero => rfl
    | succ k =>
      rw [Cursor.steps, Cursor.next_lastGap hg, hend, Location.afterAll_behind]
      rfl
  | @segment s segs g rest hs h ih =>
    rw [List.length_cons, Nat.add_right_comm, Cursor.steps, Cursor.next_segment hs,
      Location.afterAll_behind, Location.afterAll_behind, ih, readings, List.append_assoc]
    rfl

/-- Scanning yields all that is read, or the first failure. -/
theorem scan_eq (h : Decomposes segs g text) (name : String) (before : List Char) :
    (⟨.behind name before, text⟩ : Cursor).scan .clean =
      (readings name before segs ++
        [Except.ok (Token.eofAt (.behind name (before ++ text)))]).mapM id := by
  induction h generalizing before with
  | @last g hg =>
    have hnext := Cursor.next_lastGap hg (.behind name before)
    rw [Cursor.scan_of_eof (congrArg ScanStep.result hnext) rfl, Location.afterAll_behind]
    rfl
  | @segment s segs g rest hs h ih =>
    have hnext := Cursor.next_segment hs (.behind name before)
    rw [Location.afterAll_behind, Location.afterAll_behind] at hnext
    have hresult := congrArg ScanStep.result hnext
    rw [readings, List.cons_append, List.mapM_cons, ← List.append_assoc]
    cases hread : s.item.result (.behind name (before ++ s.gap)) with
    | error e =>
      rw [hread] at hresult
      exact Cursor.scan_of_error hresult
    | ok t =>
      rw [hread] at hresult
      rw [Cursor.scan_of_ok hresult (Item.result_ne_eof hs.item hread), hnext, ih]
      rfl

end Decomposes

/-! ## All readings, or the first failure -/

theorem mapM_id_eq_ok_iff {ε α : Type} {rs : List (Except ε α)} {as : List α} :
    rs.mapM id = .ok as ↔ rs = as.map .ok := by
  induction rs generalizing as with
  | nil => cases as <;> simp [pure, Except.pure]
  | cons r rs ih =>
    rw [List.mapM_cons]
    cases r with
    | error e => cases as <;> simp [bind, Except.bind]
    | ok b =>
      cases hrs : rs.mapM id with
      | error e => cases as <;> simp [bind, Except.bind, ← ih, hrs]
      | ok bs => cases as <;> simp [bind, Except.bind, pure, Except.pure, ← ih, hrs]

theorem mapM_id_eq_error {ε α : Type} {rs : List (Except ε α)} {e : ε}
    (h : rs.mapM id = .error e) :
    ∃ (as : List α) (rest : List (Except ε α)), rs = as.map .ok ++ .error e :: rest := by
  induction rs with
  | nil => cases h
  | cons r rs ih =>
    cases r with
    | error e' =>
      cases h
      exact ⟨[], rs, rfl⟩
    | ok a =>
      cases hrs : rs.mapM id with
      | error e' =>
        rw [List.mapM_cons, hrs] at h
        cases h
        obtain ⟨as, rest, rfl⟩ := ih hrs
        exact ⟨a :: as, rest, rfl⟩
      | ok as =>
        rw [List.mapM_cons, hrs] at h
        cases h

/-- **What is read is the decomposition.** A text that ends cleanly is cut, in one way only, into
gaps, tokens that cannot be made longer, and single characters that begin neither a gap nor a token.
Reading again and again yields one reading for each item, at the line and column where it stands,
and from then on the end of the input, always at the same place. Scanning yields all these tokens
with one end token behind them, or else the first failure. -/
theorem Source.reads_decomposition (name : String) (text : List Char) :
    ∃ segs last, Decomposes segs last text ∧
      (∀ segs' last', Decomposes segs' last' text → segs' = segs ∧ last' = last) ∧
      segs.flatMap Segment.chars ++ last = text ∧
      (∀ k, (Source.cursor ⟨name, text, .clean⟩).steps .clean (segs.length + k) =
        readings name [] segs ++ List.replicate k (.ok (.eofAt (.behind name text)))) ∧
      Source.scan ⟨name, text, .clean⟩ =
        (readings name [] segs ++ [Except.ok (Token.eofAt (.behind name text))]).mapM id := by
  obtain ⟨segs, last, h⟩ := exists_decomposes text
  exact ⟨segs, last, h, fun _ _ h' => h.unique h', h.flatMap_chars, h.steps_eq name [],
    h.scan_eq name []⟩

end Reckon

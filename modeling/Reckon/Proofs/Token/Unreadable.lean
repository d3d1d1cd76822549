import Reckon.Proofs.Token.Decomposition

/-!
# Texts that break off

A text that can no longer be read at some point is read like one that ends there, up to the last
item. A number or a word at the very end is not read, since more of it could follow; and behind the
last gap the end of the input is not found. So the failure to read is always met, wherever the text
breaks off, unless an invalid character is met before.

* `Location.eq_nil_of_behind_append`: no two places in a text have the same location.
* `Token.Unfinished`: the number or word that a text ends with.
* `Cursor.next_segment_broken`, `Cursor.next_unfinished`: reading one segment of a text that breaks
  off.
* `Source.BreaksOff`, `Source.scan_breakOff`: scanning a text that breaks off, compared with
  scanning one that ends.
-/

namespace Reckon

open Token (Kind)

/-! ## Places -/

/-- Two places in a text with the same location are the same place. -/
theorem Location.eq_nil_of_behind_append {name : String} {before cs : List Char}
    (h : behind name (before ++ cs) = behind name before) : cs = [] := by
  by_cases hline : '\n' ∈ cs
  · -- the longer text ends on a later line
    have hpos := List.count_pos_iff.2 hline
    have hlines := congrArg Location.line h
    simp only [behind, List.count_append] at hlines
    omega
  · -- it ends on the same line, further to the right
    have hcs : ∀ c ∈ cs.reverse, decide (c ≠ '\n') = true := by
      intro c hc
      refine decide_eq_true ?_
      rintro rfl
      exact hline (List.mem_reverse.1 hc)
    have hcols := congrArg Location.col h
    simp only [behind, List.reverse_append, List.takeWhile_append_of_pos hcs, List.length_append,
      List.length_reverse] at hcols
    exact List.eq_nil_of_length_eq_zero (by omega)

/-! ## Unfinished tokens -/

namespace Token

/-- The kinds of numbers and words. -/
def Kind.isRun : Kind → Bool
  | integer | identifier | print | bool _ => true
  | _ => false

theorem Kind.isRun_ofWord (word : String) : (ofWord word).isRun = true := by
  unfold ofWord
  repeat' split
  all_goals rfl

theorem Kind.isRun_of_mem : ∀ k ∈ symbolic, k.isRun = false := by decide

/-- The token is a number or a word with which the text of the source ends. -/
def Unfinished (t : Token) (src : Source) : Prop :=
  t.kind.isRun = true ∧
    ∃ before, src.chars = before ++ t.spelling.toList ∧ t.loc = .behind src.name before

/-- A token with something behind it is finished. -/
theorem not_unfinished {src : Source} {k : Kind} {before w rest : List Char}
    (hsrc : src.chars = before ++ w ++ rest) (h : k.isRun = false ∨ rest ≠ []) :
    ¬ (⟨k, String.ofList w, .behind src.name before⟩ : Token).Unfinished src := by
  rintro ⟨hrun, before', hsrc', hloc⟩
  rw [String.toList_ofList] at hsrc'
  rcases h with h | hrest
  · rw [h] at hrun
    cases hrun
  · have hlen := congrArg List.length (hsrc.symm.trans hsrc')
    simp only [List.length_append] at hlen
    have hpre : before <+: src.chars := ⟨w ++ rest, by rw [hsrc, List.append_assoc]⟩
    have hpre' : before' <+: src.chars := ⟨w, hsrc'.symm⟩
    obtain ⟨cs, rfl⟩ := List.prefix_of_prefix_length_le hpre hpre' (by omega)
    have hcs := Location.eq_nil_of_behind_append hloc.symm
    subst hcs
    refine hrest (List.eq_nil_of_length_eq_zero ?_)
    simp only [List.append_nil] at hlen
    omega

end Token

/-- Whether an item is a number or a word. -/
def Item.isRun : Item → Bool
  | token k _ => k.isRun
  | invalid _ => false

/-! ## Segments -/

namespace Cursor

variable {message : String}

theorem readRun_broken {cur : Cursor} {c : Char} {cs : List Char} {part : Char → Bool}
    {kind : String → Kind} (h : cs.dropWhile part ≠ []) :
    cur.readRun (.broken message) c cs part kind = cur.readRun .clean c cs part kind := by
  unfold readRun
  cases hrest : cs.dropWhile part with
  | nil => exact absurd hrest h
  | cons d ds => rfl

theorem readRun_unfinished {cur : Cursor} {c : Char} {cs : List Char} {part : Char → Bool}
    {kind : String → Kind} (h : cs.dropWhile part = []) :
    (cur.readRun (.broken message) c cs part kind).result =
      .error ⟨cur.loc, .unreadable message⟩ := by
  simp only [readRun, h]

/-- A lexeme is read as usual, unless it is a number or a word at the end. -/
theorem readToken_broken {k : Kind} {w rest : List Char} (h : Lexeme k w rest)
    (hend : k.isRun = false ∨ rest ≠ []) (loc : Location) :
    (⟨loc, w ++ rest⟩ : Cursor).readToken (.broken message) =
      (⟨loc, w ++ rest⟩ : Cursor).readToken .clean := by
  cases h with
  | number hc hcs hrest =>
    have hne := hend.resolve_left Bool.noConfusion
    rw [← (takeWhile_run hcs hrest).2] at hne
    simp only [readToken, List.cons_append, hc, if_true]
    exact readRun_broken hne
  | word hc hcs hrest =>
    have hne := hend.resolve_left (by rw [Kind.isRun_ofWord]; exact Bool.noConfusion)
    rw [← (takeWhile_run hcs hrest).2] at hne
    simp only [readToken, List.cons_append, isDigit_of_isNameStart hc, hc, if_true]
    exact readRun_broken hne
  | symbol hk =>
    have hmem := (Kind.ofSymbol?_eq_some hk).1
    obtain ⟨c, cs, hs, hdigit, hname⟩ := Kind.exists_cons_of_mem hmem
    rw [hs, List.cons_append]
    simp [readToken, hdigit, hname]

/-- At a number or a word at the end, the failure to read is met. -/
theorem readToken_unfinished {k : Kind} {w : List Char} (h : Lexeme k w []) (hk : k.isRun = true)
    (loc : Location) :
    ((⟨loc, w ++ []⟩ : Cursor).readToken (.broken message)).result =
      .error ⟨loc, .unreadable message⟩ := by
  cases h with
  | number hc hcs hrest =>
    simp only [readToken, List.cons_append, hc, if_true]
    exact readRun_unfinished (takeWhile_run hcs hrest).2
  | word hc hcs hrest =>
    simp only [readToken, List.cons_append, isDigit_of_isNameStart hc, hc, if_true]
    exact readRun_unfinished (takeWhile_run hcs hrest).2
  | symbol hsymbol =>
    rw [Kind.isRun_of_mem k (Kind.ofSymbol?_eq_some hsymbol).1] at hk
    cases hk

variable (message)

/-- **Reading a segment** that is finished. -/
theorem next_segment_broken {s : Segment} {rest : List Char} (h : s.Fits rest)
    (hend : s.item.isRun = false ∨ rest ≠ []) (loc : Location) :
    (⟨loc, s.chars ++ rest⟩ : Cursor).next (.broken message) =
      (⟨loc, s.chars ++ rest⟩ : Cursor).next .clean := by
  rw [next, next, skipGap_segment h]
  have hitem := h.item
  cases hi : s.item with
  | token k w =>
    rw [hi] at hitem hend
    exact readToken_broken (lexeme_iff.2 hitem) hend _
  | invalid c =>
    rw [hi] at hitem
    exact (readToken_invalid hitem.2 _ _).trans (readToken_invalid hitem.2 _ _).symm

/-- **Reading a segment** that ends with an unfinished token. -/
theorem next_unfinished {g w : List Char} {k : Kind}
    (h : Segment.Fits ⟨g, .token k w⟩ []) (hk : k.isRun = true) (loc : Location) :
    ((⟨loc, Segment.chars ⟨g, .token k w⟩ ++ []⟩ : Cursor).next (.broken message)).result =
      .error ⟨loc.afterAll g, .unreadable message⟩ := by
  rw [next, skipGap_segment h]
  exact readToken_unfinished (lexeme_iff.2 h.item) hk _

/-- Behind the last gap, the failure to read is met. -/
theorem next_lastGap_broken {g : List Char} (h : LastGap g) (loc : Location) :
    ((⟨loc, g⟩ : Cursor).next (.broken message)).result =
      .error ⟨loc.afterAll g, .unreadable message⟩ := by
  rw [next, skipGap_lastGap h]
  rfl

end Cursor

/-! ## Texts -/

/-- Where it is reported that a source with the tokens `ts` breaks off: at the start of the token
that is unfinished, or at the end of the text if there is none. -/
def Source.BreaksAt (src : Source) (ts : List Token) (loc : Location) : Prop :=
  (∃ t ∈ ts, t.Unfinished src ∧ loc = t.loc) ∨
    (∀ t ∈ ts, ¬ t.Unfinished src) ∧ loc = .behind src.name src.chars

theorem Source.BreaksAt.cons {src : Source} {t : Token} {ts : List Token} {loc : Location}
    (h : src.BreaksAt ts loc) (ht : ¬ t.Unfinished src) : src.BreaksAt (t :: ts) loc := by
  rcases h with ⟨u, hu, hloc⟩ | ⟨hnone, hloc⟩
  · exact .inl ⟨u, List.mem_cons_of_mem t hu, hloc⟩
  · refine .inr ⟨fun u hu => ?_, hloc⟩
    rcases List.mem_cons.1 hu with rfl | hu
    · exact ht
    · exact hnone u hu

/-- What scanning a source yields if its text ends cleanly, and what it yields if the text breaks
off at the same point. -/
inductive Source.BreaksOff (src : Source) (message : String) :
    Except (Located ScanError) (List Token) → Except (Located ScanError) (List Token) → Prop
  | invalid (loc : Location) (c : Char) :
      BreaksOff src message (.error ⟨loc, .invalidCharacter c⟩) (.error ⟨loc, .invalidCharacter c⟩)
  | ok {ts : List Token} {loc : Location} (h : src.BreaksAt ts loc) :
      BreaksOff src message (.ok ts) (.error ⟨loc, .unreadable message⟩)

theorem Source.BreaksOff.cons {src : Source} {message : String}
    {clean broken : Except (Located ScanError) (List Token)} {t : Token}
    (h : src.BreaksOff message clean broken) (ht : ¬ t.Unfinished src) :
    src.BreaksOff message (clean.map (t :: ·)) (broken.map (t :: ·)) := by
  cases h with
  | invalid loc c => exact .invalid loc c
  | ok h => exact .ok (h.cons ht)

section Scanning

variable {src : Source} {before rest : List Char} (message : String)

/-- The text ends with a number or a word: it is read if the text ends cleanly, and is unfinished if
the text breaks off. -/
theorem Segment.Fits.scan_unfinished {gap w : List Char} {k : Kind}
    (hs : Segment.Fits ⟨gap, .token k w⟩ []) (hk : k.isRun = true)
    (hsrc : src.chars = before ++ gap ++ w) :
    src.BreaksOff message
      ((⟨.behind src.name before, Segment.chars ⟨gap, .token k w⟩ ++ []⟩ : Cursor).scan .clean)
      ((⟨.behind src.name before, Segment.chars ⟨gap, .token k w⟩ ++ []⟩ : Cursor).scan
        (.broken message)) := by
  have hnext := Cursor.next_segment hs (.behind src.name before)
  have hbroken := Cursor.next_unfinished message hs hk (.behind src.name before)
  rw [Location.afterAll_behind] at hbroken hnext
  have hclean := Cursor.scan_of_ok (congrArg ScanStep.result hnext) (lexeme_iff.2 hs.item).ne_eof
  rw [hnext, scan_nil] at hclean
  rw [hclean, Cursor.scan_of_error hbroken]
  refine .ok (.inl ⟨_, List.mem_cons_self, ⟨hk, before ++ gap, ?_, rfl⟩, rfl⟩)
  rw [String.toList_ofList, hsrc]

/-- Any other segment is read alike, and scanning goes on behind it. -/
theorem Segment.Fits.scan_breaksOff {s : Segment} (hs : s.Fits rest)
    (hend : s.item.isRun = false ∨ rest ≠ []) (hsrc : src.chars = before ++ s.chars ++ rest)
    (hrest : src.BreaksOff message
      ((⟨.behind src.name (before ++ s.chars), rest⟩ : Cursor).scan .clean)
      ((⟨.behind src.name (before ++ s.chars), rest⟩ : Cursor).scan (.broken message))) :
    src.BreaksOff message ((⟨.behind src.name before, s.chars ++ rest⟩ : Cursor).scan .clean)
      ((⟨.behind src.name before, s.chars ++ rest⟩ : Cursor).scan (.broken message)) := by
  obtain ⟨gap, item⟩ := s
  have hnext := Cursor.next_segment hs (.behind src.name before)
  rw [Location.afterAll_behind, Location.afterAll_behind] at hnext
  have hsame := Cursor.next_segment_broken message hs hend (.behind src.name before)
  have hclean := congrArg ScanStep.result hnext
  have hbroken := (congrArg ScanStep.result hsame).trans hclean
  cases item with
  | invalid c =>
    rw [Cursor.scan_of_error hclean, Cursor.scan_of_error hbroken]
    exact .invalid _ c
  | token k w =>
    have hne : k ≠ .eof := (lexeme_iff.2 hs.item).ne_eof
    have hclean := Cursor.scan_of_ok hclean hne
    have hbroken := Cursor.scan_of_ok hbroken hne
    rw [hclean, hbroken, hsame, hnext]
    refine hrest.cons (Token.not_unfinished ?_ hend)
    rw [hsrc, Segment.chars, ← List.append_assoc before]
    rfl

/-- **Scanning a text that breaks off.** The induction is on the segments, behind the part `before`
of the text that is read already. -/
theorem Decomposes.scan_breaksOff {segs : List Segment} {g text : List Char}
    (h : Decomposes segs g text) (src : Source) (before : List Char)
    (hsrc : src.chars = before ++ text) :
    src.BreaksOff message ((⟨.behind src.name before, text⟩ : Cursor).scan .clean)
      ((⟨.behind src.name before, text⟩ : Cursor).scan (.broken message)) := by
  induction h generalizing before with
  | @last g hg =>
    have hclean := Cursor.next_lastGap hg (.behind src.name before)
    have hbroken := Cursor.next_lastGap_broken message hg (.behind src.name before)
    rw [Location.afterAll_behind, ← hsrc] at hclean hbroken
    rw [Cursor.scan_of_eof (congrArg ScanStep.result hclean) rfl, Cursor.scan_of_error hbroken]
    refine .ok (.inr ⟨?_, rfl⟩)
    rintro t ht ⟨hrun, -⟩
    rw [List.mem_singleton.1 ht] at hrun
    cases hrun
  | @segment s segs g rest hs h ih =>
    rw [← List.append_assoc] at hsrc
    have hread := fun hend => hs.scan_breaksOff message hend hsrc (ih _ hsrc)
    by_cases hrest : rest = []
    · subst hrest
      obtain ⟨gap, item⟩ := s
      cases hrun : item.isRun with
      | false => exact hread (.inl hrun)
      | true =>
        cases item with
        | invalid c => cases hrun
        | token k w =>
          refine hs.scan_unfinished message hrun ?_
          rw [hsrc, List.append_nil, Segment.chars, ← List.append_assoc before]
          rfl
    · exact hread (.inr hrest)

end Scanning

/-- The source whose text breaks off where this one ends. -/
def Source.breakOff (src : Source) (message : String) : Source :=
  { src with ending := .broken message }

/-- **A source that breaks off**, compared with the one that ends. -/
theorem Source.scan_breakOff (src : Source) (h : src.ending = .clean) (message : String) :
    src.BreaksOff message src.scan (src.breakOff message).scan := by
  obtain ⟨name, text, ending⟩ := src
  cases h
  obtain ⟨segs, g, htext⟩ := exists_decomposes text
  exact htext.scan_breaksOff message ⟨name, text, .clean⟩ [] rfl

end Reckon

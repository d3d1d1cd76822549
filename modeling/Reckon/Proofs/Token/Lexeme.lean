import Reckon.Token.Scan

/-!
# Lexemes

What one token looks like in a text, and how scanning finds it. `Lexeme k w rest` says that `w` is
how a token of kind `k` is written and that `rest` does not make it longer.

* `Kind.ofSymbol?_append`: a symbol is read as such if no longer one can be read.
* `Cursor.next_clean`, `Cursor.readToken_ok`: a token is read where there is a lexeme, and only
  there.
* `Cursor.fromText_of_mem_scan`: every scanned token but the end token is a lexeme.
* `Cursor.ending_eq_of_scan`: only a text that ends cleanly has tokens.
* `ScansAs`: a part of a text is some tokens, whatever the tokens of the rest are.
-/

namespace Reckon

open Token (Kind)

/-! ## Character classes -/

namespace Text

theorem inRanges_eq_true {rs : List (Nat × Nat)} {n : Nat} (h : inRanges rs n = true) :
    ∃ r ∈ rs, r.1 ≤ n ∧ n ≤ r.2 := by
  simpa [inRanges] using h

theorem toNat_of_isDigit {c : Char} (h : c.isDigit = true) : 48 ≤ c.toNat ∧ c.toNat ≤ 57 :=
  Char.isDigit_iff_toNat.1 h

theorem toNat_of_isAlpha {c : Char} (h : c.isAlpha = true) : 65 ≤ c.toNat ∧ c.toNat ≤ 122 := by
  replace h : (c.isUpper || c.isLower) = true := h
  rcases Bool.or_eq_true_iff.1 h with h | h
  · obtain ⟨hlo, hhi⟩ := of_decide_eq_true h
    have hlo : 65 ≤ c.toNat := UInt32.le_iff_toNat_le.1 hlo
    have hhi : c.toNat ≤ 90 := UInt32.le_iff_toNat_le.1 hhi
    omega
  · obtain ⟨hlo, hhi⟩ := Bool.and_eq_true_iff.1 h
    have hlo : 97 ≤ c.toNat := UInt32.le_iff_toNat_le.1 (of_decide_eq_true hlo)
    have hhi : c.toNat ≤ 122 := UInt32.le_iff_toNat_le.1 (of_decide_eq_true hhi)
    omega

/-- The white space is apart from the letters outside ASCII, and from the ASCII characters between
the first digit and the last letter. -/
private theorem blankRanges_apart :
    ∀ b ∈ blankRanges, (∀ r ∈ letterRanges, r.2 < b.1 ∨ b.2 < r.1) ∧ (b.2 < 48 ∨ 122 < b.1) := by
  decide +kernel

theorem isBlank_of_isLetter {c : Char} (h : isLetter c = true) : isBlank c = false := by
  refine Bool.eq_false_iff.2 fun hb => ?_
  obtain ⟨b, hb, h1, h2⟩ := inRanges_eq_true hb
  obtain ⟨hletter, hascii⟩ := blankRanges_apart b hb
  unfold isLetter at h
  split at h
  · have := toNat_of_isAlpha h
    omega
  · obtain ⟨r, hr, h3, h4⟩ := inRanges_eq_true h
    have := hletter r hr
    omega

theorem isBlank_of_isDigit {c : Char} (h : c.isDigit = true) : isBlank c = false := by
  refine Bool.eq_false_iff.2 fun hb => ?_
  obtain ⟨b, hb, h1, h2⟩ := inRanges_eq_true hb
  obtain ⟨-, hascii⟩ := blankRanges_apart b hb
  have := toNat_of_isDigit h
  omega

theorem isDigit_of_isLetter {c : Char} (h : isLetter c = true) : c.isDigit = false := by
  refine Bool.eq_false_iff.2 fun hd => ?_
  have hd := toNat_of_isDigit hd
  unfold isLetter at h
  rw [if_pos (by omega)] at h
  have := toNat_of_isAlpha h
  omega

end Text

theorem isDigit_of_isNameStart {c : Char} (h : isNameStart c = true) : c.isDigit = false := by
  simp only [isNameStart, Bool.or_eq_true, beq_iff_eq] at h
  rcases h with rfl | h
  · decide
  · exact Text.isDigit_of_isLetter h

theorem isBlank_of_isNameStart {c : Char} (h : isNameStart c = true) : Text.isBlank c = false := by
  simp only [isNameStart, Bool.or_eq_true, beq_iff_eq] at h
  rcases h with rfl | h
  · decide
  · exact Text.isBlank_of_isLetter h

/-! ## Symbols -/

namespace Token.Kind

/-- No symbol in the list of symbols is how a later one begins. -/
theorem symbolic_pairwise : symbolic.Pairwise fun a b => ¬ a.symbol <+: b.symbol := by
  decide

/-- What a symbol begins with begins neither a gap nor a number nor a name. -/
theorem symbol_head_of_mem : ∀ k ∈ symbolic, ∀ c ∈ k.symbol.head?,
    c.isDigit = false ∧ isNameStart c = false ∧ Text.isBlank c = false ∧ c ≠ '#' := by
  have hall : symbolic.all (fun k => k.symbol.head?.all fun c =>
      !c.isDigit && !isNameStart c && !Text.isBlank c && c != '#') = true := by
    decide
  intro k hk c hc
  have hk := List.all_eq_true.1 hall k hk
  rw [Option.mem_def.1 hc] at hk
  simpa [and_assoc] using hk

/-- A symbol in front of `rest` is read as such if `rest` does not begin with a character that makes
it a longer one. -/
theorem ofSymbol?_append {k : Kind} (hk : k ∈ symbolic) {rest : List Char}
    (h : ∀ c ∈ rest.head?, ∀ k' ∈ symbolic, ¬ k.symbol ++ [c] <+: k'.symbol) :
    ofSymbol? (k.symbol ++ rest) = some k := by
  obtain ⟨as, bs, hsplit⟩ := List.append_of_mem hk
  refine List.find?_eq_some_iff_append.2
    ⟨List.isPrefixOf_iff_prefix.2 (List.prefix_append _ _), as, bs, hsplit, fun a ha => ?_⟩
  have hpair := symbolic_pairwise
  rw [hsplit, List.pairwise_append] at hpair
  have hak := hpair.2.2 a ha k List.mem_cons_self
  simp only [Bool.not_eq_true', Bool.eq_false_iff, ne_eq, List.isPrefixOf_iff_prefix]
  intro hpre
  rcases List.prefix_or_prefix_of_prefix hpre (List.prefix_append k.symbol rest) with hle | ⟨m, hm⟩
  · exact hak hle
  · -- the earlier symbol is longer, so `rest` begins with its next character
    cases m with
    | nil =>
      rw [List.append_nil] at hm
      exact hak (hm ▸ List.prefix_refl _)
    | cons c m =>
      rw [← hm, List.prefix_append_right_inj] at hpre
      obtain ⟨n, hn⟩ := hpre
      have hhead : c ∈ rest.head? := by rw [← hn]; rfl
      have hmem : a ∈ symbolic := by rw [hsplit]; exact List.mem_append_left _ ha
      refine h c hhead a hmem ⟨m, ?_⟩
      rw [← hm, List.append_assoc]
      rfl

/-- The characters that a symbol goes on with. -/
def symbolParts : List Char := ['=', '&', '|', '<', '>']

private theorem mem_symbolParts_of_mem : ∀ k ∈ symbolic, ∀ c ∈ k.symbol.tail, c ∈ symbolParts := by
  have hall : symbolic.all (fun k => k.symbol.tail.all symbolParts.contains) = true := by decide
  intro k hk c hc
  have hk := List.all_eq_true.1 hall k hk
  exact List.contains_iff_mem.1 (List.all_eq_true.1 hk c hc)

/-- A symbol in front of a character that no symbol goes on with is read as such. -/
theorem ofSymbol?_append_of_notMem {k : Kind} (hk : k ∈ symbolic) {rest : List Char}
    (h : ∀ c ∈ rest.head?, c ∉ symbolParts) : ofSymbol? (k.symbol ++ rest) = some k := by
  refine ofSymbol?_append hk fun c hc k' hk' hpre => h c hc (mem_symbolParts_of_mem k' hk' c ?_)
  obtain ⟨m, hm⟩ := hpre
  cases hs : k.symbol with
  | nil => exact absurd hs (symbol_ne_nil_of_mem k hk)
  | cons d ds =>
    rw [← hm, hs]
    simp

/-- A parenthesis is no part of a longer symbol. -/
theorem ofSymbol?_paren {k : Kind} (hk : k = .leftParen ∨ k = .rightParen) (rest : List Char) :
    ofSymbol? (k.symbol ++ rest) = some k := by
  rcases hk with rfl | rfl <;> rfl

/-- What is read as a symbol is a symbol, and the text begins with it. -/
theorem ofSymbol?_eq_some {k : Kind} {text : List Char} (h : ofSymbol? text = some k) :
    k ∈ symbolic ∧ text = k.symbol ++ text.drop k.symbol.length := by
  refine ⟨List.mem_of_find?_eq_some h, ?_⟩
  unfold ofSymbol? at h
  have hpre := List.find?_some h
  obtain ⟨rest, rfl⟩ := List.isPrefixOf_iff_prefix.1 hpre
  simp

end Token.Kind

/-! ## One token -/

/-- A token of kind `k` is written as `w`, and what follows it does not belong to it. -/
inductive Lexeme : Kind → List Char → List Char → Prop
  | number {c : Char} {cs rest : List Char} (hc : c.isDigit = true)
      (hcs : ∀ d ∈ cs, d.isDigit = true) (hrest : ∀ d ∈ rest.head?, ¬ d.isDigit = true) :
      Lexeme .integer (c :: cs) rest
  | word {c : Char} {cs rest : List Char} (hc : isNameStart c = true)
      (hcs : ∀ d ∈ cs, isNamePart d = true) (hrest : ∀ d ∈ rest.head?, ¬ isNamePart d = true) :
      Lexeme (.ofWord (String.ofList (c :: cs))) (c :: cs) rest
  | symbol {k : Kind} {rest : List Char} (hk : Kind.ofSymbol? (k.symbol ++ rest) = some k) :
      Lexeme k k.symbol rest

namespace Lexeme

variable {k : Kind} {w rest : List Char}

theorem ne_eof (h : Lexeme k w rest) : k ≠ .eof := by
  cases h with
  | number => simp
  | word => exact Kind.ofWord_ne_eof _
  | symbol hk => exact Kind.ne_eof_of_mem k (Kind.ofSymbol?_eq_some hk).1

/-- A lexeme does not begin with a gap. -/
theorem head (h : Lexeme k w rest) :
    ∃ c cs, w = c :: cs ∧ Text.isBlank c = false ∧ c ≠ '#' := by
  cases h with
  | @number c cs _ hc => exact ⟨c, cs, rfl, Text.isBlank_of_isDigit hc, by rintro rfl; cases hc⟩
  | @word c cs _ hc => exact ⟨c, cs, rfl, isBlank_of_isNameStart hc, by rintro rfl; cases hc⟩
  | symbol hk =>
    have hmem := (Kind.ofSymbol?_eq_some hk).1
    cases hs : k.symbol with
    | nil => exact absurd hs (Kind.symbol_ne_nil_of_mem k hmem)
    | cons c cs =>
      have hc := Kind.symbol_head_of_mem k hmem c (by rw [hs]; rfl)
      exact ⟨c, cs, rfl, hc.2.2⟩

end Lexeme

/-- A token as a text can contain it: the end of the input, or a lexeme. -/
def Token.FromText (t : Token) : Prop :=
  t.kind = .eof ∨ ∃ w rest, Lexeme t.kind w rest ∧ t.spelling = String.ofList w

/-! ## Reading -/

/-- A run of characters of a class ends where the rest does not begin with one. -/
theorem takeWhile_run {p : Char → Bool} {cs rest : List Char} (hcs : ∀ d ∈ cs, p d = true)
    (hrest : ∀ d ∈ rest.head?, ¬ p d = true) :
    (cs ++ rest).takeWhile p = cs ∧ (cs ++ rest).dropWhile p = rest := by
  rw [List.takeWhile_append_of_pos hcs, List.dropWhile_append_of_pos hcs]
  cases rest with
  | nil => simp
  | cons d ds =>
    have hd : ¬ p d = true := hrest d rfl
    rw [List.takeWhile_cons_of_neg hd, List.dropWhile_cons_of_neg hd]
    simp

/-- The longest run of characters of a class that a text begins with. -/
theorem takeWhile_spec (p : Char → Bool) (cs : List Char) :
    cs = cs.takeWhile p ++ cs.dropWhile p ∧ (∀ d ∈ cs.takeWhile p, p d = true) ∧
      ∀ d ∈ (cs.dropWhile p).head?, ¬ p d = true := by
  refine ⟨List.takeWhile_append_dropWhile.symm, List.all_eq_true.1 List.all_takeWhile,
    fun d hd => ?_⟩
  have hnot := List.head?_dropWhile_not p cs
  rw [Option.mem_def.1 hd] at hnot
  simpa using hnot

namespace Cursor

theorem skipGap_eq_self {loc : Location} {c : Char} {cs : List Char}
    (hc : Text.isBlank c = false) (hc' : c ≠ '#') :
    (⟨loc, c :: cs⟩ : Cursor).skipGap = ⟨loc, c :: cs⟩ := by
  simp [skipGap, spanGap, hc, hc', skip]

theorem skipGap_blank {loc : Location} {c : Char} {cs : List Char} (hc : Text.isBlank c = true) :
    (⟨loc, c :: cs⟩ : Cursor).skipGap = (⟨loc.after c, cs⟩ : Cursor).skipGap := by
  have hc' : c ≠ '#' := by rintro rfl; revert hc; decide
  simp [skipGap, spanGap, hc, hc', skip]

theorem readRun_clean {cur : Cursor} {c : Char} {cs rest : List Char} {part : Char → Bool}
    {kind : String → Kind} (hcs : ∀ d ∈ cs, part d = true)
    (hrest : ∀ d ∈ rest.head?, ¬ part d = true) :
    cur.readRun .clean c (cs ++ rest) part kind =
      ⟨.ok ⟨kind (String.ofList (c :: cs)), String.ofList (c :: cs), cur.loc⟩,
        ⟨cur.loc.afterAll (c :: cs), rest⟩⟩ := by
  obtain ⟨htake, hdrop⟩ := takeWhile_run hcs hrest
  simp only [readRun, htake, hdrop, skip]

theorem readToken_clean {k : Kind} {w rest : List Char} (h : Lexeme k w rest) (loc : Location) :
    (⟨loc, w ++ rest⟩ : Cursor).readToken .clean =
      ⟨.ok ⟨k, String.ofList w, loc⟩, ⟨loc.afterAll w, rest⟩⟩ := by
  cases h with
  | number hc hcs hrest =>
    simp only [readToken, List.cons_append, hc, if_true]
    exact readRun_clean hcs hrest
  | word hc hcs hrest =>
    simp only [readToken, List.cons_append, isDigit_of_isNameStart hc, hc, if_true]
    exact readRun_clean hcs hrest
  | symbol hk =>
    have hmem := (Kind.ofSymbol?_eq_some hk).1
    cases hs : k.symbol with
    | nil => exact absurd hs (Kind.symbol_ne_nil_of_mem k hmem)
    | cons c cs =>
      obtain ⟨hd, hn, -, -⟩ := Kind.symbol_head_of_mem k hmem c (by rw [hs]; rfl)
      rw [hs, List.cons_append] at hk
      simp [readToken, hd, hn, hk, hs, skip]

/-- **Reading a lexeme.** -/
theorem next_clean {k : Kind} {w rest : List Char} (h : Lexeme k w rest) (loc : Location) :
    (⟨loc, w ++ rest⟩ : Cursor).next .clean =
      ⟨.ok ⟨k, String.ofList w, loc⟩, ⟨loc.afterAll w, rest⟩⟩ := by
  obtain ⟨c, cs, rfl, hc, hc'⟩ := h.head
  have hskip : (⟨loc, c :: cs ++ rest⟩ : Cursor).skipGap = ⟨loc, c :: cs ++ rest⟩ :=
    skipGap_eq_self hc hc'
  rw [next, hskip]
  exact readToken_clean h loc

private theorem readRun_ok {ending : Ending} {cur : Cursor} {c : Char} {cs : List Char}
    {part : Char → Bool} {kind : String → Kind} {t : Token}
    (h : (cur.readRun ending c cs part kind).result = .ok t) :
    ∃ w rest, cs = w ++ rest ∧ (∀ d ∈ w, part d = true) ∧ (∀ d ∈ rest.head?, ¬ part d = true) ∧
      t.kind = kind (String.ofList (c :: w)) ∧ t.spelling = String.ofList (c :: w) := by
  obtain ⟨hsplit, hrun, hrest⟩ := takeWhile_spec part cs
  refine ⟨cs.takeWhile part, cs.dropWhile part, hsplit, hrun, hrest, ?_⟩
  unfold readRun at h
  dsimp only at h
  split at h
  · cases h
  · cases h
    exact ⟨rfl, rfl⟩

/-- **What is read is a lexeme**, unless it is the end of an input that ends cleanly. -/
theorem readToken_ok {ending : Ending} {cur : Cursor} {t : Token}
    (h : (cur.readToken ending).result = .ok t) :
    (ending = .clean ∧ t.kind = .eof) ∨ ∃ w rest, cur.rest = w ++ rest ∧ Lexeme t.kind w rest ∧
      t.spelling = String.ofList w := by
  unfold readToken at h
  split at h
  · cases ending with
    | clean => cases h; exact .inl ⟨rfl, rfl⟩
    | broken m => cases h
  · rename_i c cs hcur
    refine .inr ?_
    rw [hcur]
    split at h
    · rename_i hc
      obtain ⟨w, rest, rfl, hw, hrest, hk, hs⟩ := readRun_ok h
      exact ⟨c :: w, rest, rfl, hk ▸ .number hc hw hrest, hs⟩
    · split at h
      · rename_i hc
        obtain ⟨w, rest, rfl, hw, hrest, hk, hs⟩ := readRun_ok h
        exact ⟨c :: w, rest, rfl, hk ▸ .word hc hw hrest, hs⟩
      · split at h
        · rename_i k hk
          cases h
          obtain ⟨-, htext⟩ := Kind.ofSymbol?_eq_some hk
          exact ⟨k.symbol, _, htext, .symbol (htext ▸ hk), rfl⟩
        · cases h

/-! ## All tokens -/

section Scan

variable {ending : Ending} {cur : Cursor} {t : Token}

theorem scan_of_eof (h : (cur.next ending).result = .ok t) (ht : t.kind = .eof) :
    cur.scan ending = .ok [t] := by
  rw [scan]
  split
  · rename_i e he
    rw [h] at he
    cases he
  · rename_i u hu
    rw [h] at hu
    cases hu
    rw [dif_pos ht]

theorem scan_of_ok (h : (cur.next ending).result = .ok t) (ht : t.kind ≠ .eof) :
    cur.scan ending = ((cur.next ending).cursor.scan ending).map (t :: ·) := by
  rw [scan]
  split
  · rename_i e he
    rw [h] at he
    cases he
  · rename_i u hu
    rw [h] at hu
    cases hu
    rw [dif_neg ht]
    cases scan ending (cur.next ending).cursor <;> rfl

/-- One more token in front. -/
theorem scan_cons {ts : List Token} (h : (cur.next ending).result = .ok t) (ht : t.kind ≠ .eof)
    (hts : (cur.next ending).cursor.scan ending = .ok ts) : cur.scan ending = .ok (t :: ts) := by
  rw [scan_of_ok h ht, hts]
  rfl

theorem scan_of_error {e : Located ScanError} (h : (cur.next ending).result = .error e) :
    cur.scan ending = .error e := by
  rw [scan]
  split
  · rename_i e' he
    rw [h] at he
    cases he
    rfl
  · rename_i u hu
    rw [h] at hu
    cases hu

/-- Where scanning starts in a gap does not matter. -/
theorem scan_congr {cur' : Cursor} (h : cur.skipGap = cur'.skipGap) :
    cur.scan ending = cur'.scan ending := by
  have hnext : cur.next ending = cur'.next ending := by rw [next, next, h]
  cases hr : (cur'.next ending).result with
  | error e => rw [scan_of_error hr, scan_of_error (hnext ▸ hr)]
  | ok t =>
    have hr' : (cur.next ending).result = .ok t := hnext ▸ hr
    by_cases ht : t.kind = .eof
    · rw [scan_of_eof hr ht, scan_of_eof hr' ht]
    · rw [scan_of_ok hr ht, scan_of_ok hr' ht, hnext]

/-- **Every scanned token is a lexeme**, the end of the input apart. -/
theorem fromText_of_mem_scan {ts : List Token} (h : cur.scan ending = .ok ts) (ht : t ∈ ts) :
    t.FromText := by
  induction hn : cur.rest.length using Nat.strongRecOn generalizing cur ts with
  | ind n ih =>
    cases hr : (cur.next ending).result with
    | error e => rw [scan_of_error hr] at h; cases h
    | ok u =>
      have hu : u.FromText := by
        rcases readToken_ok hr with ⟨-, hu⟩ | ⟨w, rest, -, hw, hs⟩
        · exact .inl hu
        · exact .inr ⟨w, rest, hw, hs⟩
      by_cases hk : u.kind = .eof
      · rw [scan_of_eof hr hk] at h
        cases h
        rw [List.mem_singleton.1 ht]
        exact hu
      · rw [scan_of_ok hr hk] at h
        cases hs : (cur.next ending).cursor.scan ending with
        | error e => rw [hs] at h; cases h
        | ok us =>
          rw [hs] at h
          cases h
          rcases List.mem_cons.1 ht with rfl | ht
          · exact hu
          · exact ih _ (hn ▸ next_rest_lt hr hk) hs ht rfl

/-- **A text that breaks off has no tokens**, since its end is never read. -/
theorem ending_eq_of_scan {ts : List Token} (h : cur.scan ending = .ok ts) : ending = .clean := by
  induction hn : cur.rest.length using Nat.strongRecOn generalizing cur ts with
  | ind n ih =>
    cases hr : (cur.next ending).result with
    | error e => rw [scan_of_error hr] at h; cases h
    | ok t =>
      rcases readToken_ok hr with ⟨hclean, -⟩ | ⟨w, rest, -, hw, -⟩
      · exact hclean
      · rw [scan_of_ok hr hw.ne_eof] at h
        cases hs : (cur.next ending).cursor.scan ending with
        | error e => rw [hs] at h; cases h
        | ok us => exact ih _ (hn ▸ next_rest_lt hr hw.ne_eof) hs rfl

end Scan

end Cursor

theorem scan_nil (loc : Location) :
    (⟨loc, []⟩ : Cursor).scan .clean = .ok [.eofAt loc] :=
  Cursor.scan_of_eof rfl rfl

/-! ## Parts of a text -/

/-- Read from `loc` on, the characters `w` in front of `rest` are the tokens `ts`, and reading goes
on in `rest`. -/
def ScansAs (loc : Location) (w : List Char) (ts : List Token) (rest : List Char) : Prop :=
  (⟨loc, w ++ rest⟩ : Cursor).scan .clean =
    ((⟨loc.afterAll w, rest⟩ : Cursor).scan .clean).map (ts ++ ·)

namespace ScansAs

variable {loc : Location} {w v rest : List Char} {ts us : List Token}

theorem lexeme {k : Kind} (h : Lexeme k w rest) :
    ScansAs loc w [⟨k, String.ofList w, loc⟩] rest := by
  have hnext := Cursor.next_clean h loc
  have hresult := congrArg ScanStep.result hnext
  rw [ScansAs, Cursor.scan_of_ok hresult h.ne_eof, hnext]
  rfl

theorem append (hw : ScansAs loc w ts (v ++ rest)) (hv : ScansAs (loc.afterAll w) v us rest) :
    ScansAs loc (w ++ v) (ts ++ us) rest := by
  unfold ScansAs at *
  rw [List.append_assoc, hw, hv, Location.afterAll_append]
  cases (⟨(loc.afterAll w).afterAll v, rest⟩ : Cursor).scan .clean with
  | error e => rfl
  | ok vs => simp [Except.map]

/-- A blank in front of a part belongs to it. -/
theorem blank {c : Char} (hc : Text.isBlank c = true) (h : ScansAs (loc.after c) w ts rest) :
    ScansAs loc (c :: w) ts rest := by
  unfold ScansAs at *
  rw [List.cons_append, Cursor.scan_congr (Cursor.skipGap_blank hc), h]
  rfl

end ScansAs

end Reckon

import Reckon.Proofs.Grammar.Reading

/-!
# Sentences

The programs that parsing accepts, as a grammar: phrases in a row up to the end of the input.

* `Sentence.unique`: tokens are those of at most one sentence.
* `parseProgram_ok_iff`: where parsing a program succeeds, and what it yields.
* `parseWith_eq_ok_iff`: the same for whole lists of tokens, under any grouping.
* `parse_ok_iff_sentence`: a list of tokens with the end of the input behind it is parsed exactly
  when it is a sentence, and the program is the one that this sentence stands for.
-/

namespace Reckon

open Token (Kind)

section Sentences

variable {g : Grouping} {c : Precedence}

/-! ## Whole phrases -/

theorem Token.Kind.leastPower_le_power (k : Kind) : Kind.leastPower ≤ k.power := by
  cases k with
  | binary op => exact Int.le_of_lt op.leastPower_lt_power
  | _ => simp [Kind.power, Kind.leastPower, Kind.greatestPower]

/-- At the least threshold only the right end of a phrase matters: it must not be extended by what
follows. -/
theorem Phrase.WellPrecedenced.fits {p : Phrase} (h : p.WellPrecedenced g.precedence)
    {rest : List Token} (hrest : (headKind rest).power ≤ Kind.leastPower) :
    Fits g Kind.leastPower p rest :=
  ⟨h, fun _ hj => Phrase.leastPower_lt_of_mem_leftPowers hj,
    fun _ hj => Int.le_trans hrest (Phrase.leastPower_le_of_mem_rightReach hj)⟩

theorem Phrase.WellPrecedenced.reads {p : Phrase} (h : p.WellPrecedenced g.precedence)
    {rest : List Token} (hrest : (headKind rest).power ≤ Kind.leastPower) :
    Reads g Kind.leastPower none (p.yield ++ rest) p rest :=
  (h.fits hrest).reads (.stop hrest)

/-- Parsing at the least threshold finds the phrases that nothing behind them extends. -/
theorem parseExpr_leastPower_ok_iff {fin : Location} {ts rest : List Token} {e : Expr} :
    parseExpr g fin Kind.leastPower ts = ⟨.ok e, rest⟩ ↔
      ∃ p : Phrase, p.WellPrecedenced g.precedence ∧ ts = p.yield ++ rest ∧ p.expr = e ∧
        (headKind rest).power ≤ Kind.leastPower := by
  constructor
  · intro h
    replace h : resume g fin Kind.leastPower none ts = ⟨.ok e, rest⟩ := h
    obtain ⟨p, hp, he⟩ := exists_reads_of_parse h
    obtain ⟨hy, hfit, hstop⟩ := hp.fits fun _ hl => by cases hl
    exact ⟨p, hfit.ordered, hy, he, hstop⟩
  · rintro ⟨p, hp, rfl, rfl, hrest⟩
    exact (hp.reads hrest).parse_eq fin

/-! ## Phrases in a row -/

theorem Sentence.single {p : Phrase} (h : p.WellPrecedenced c) : Sentence c [p] where
  ordered q hq := by
    rw [List.mem_singleton.1 hq]
    exact h
  apart q hq := by cases hq

theorem Sentence.tail {p : Phrase} {ps : List Phrase} (h : Sentence c (p :: ps)) :
    Sentence c ps :=
  ⟨fun q hq => h.ordered q (List.mem_cons_of_mem p hq),
    fun q hq => h.apart q (List.mem_of_mem_tail hq)⟩

/-- What follows the first phrase of a sentence does not extend it. -/
theorem Sentence.head_closed {p : Phrase} {ps : List Phrase} (h : Sentence g.precedence (p :: ps))
    {rest : List Token} (hrest : headKind rest = .eof) :
    (headKind (ps.flatMap Phrase.yield ++ rest)).power ≤ Kind.leastPower := by
  cases ps with
  | nil =>
    rw [List.flatMap_nil, List.nil_append, hrest]
    exact Int.le_refl _
  | cons q qs =>
    rw [List.flatMap_cons, List.append_assoc, q.headKind_yield_append]
    exact Int.le_of_eq (h.apart q List.mem_cons_self)

/-- **No ambiguity.** Two sentences with the same tokens are the same. -/
theorem Sentence.unique {ps qs : List Phrase} (hp : Sentence g.precedence ps)
    (hq : Sentence g.precedence qs)
    (h : ps.flatMap Phrase.yield = qs.flatMap Phrase.yield) : ps = qs := by
  induction ps generalizing qs with
  | nil =>
    cases qs with
    | nil => rfl
    | cons q qs => simp [q.yield_ne_nil] at h
  | cons p ps ih =>
    cases qs with
    | nil => simp [p.yield_ne_nil] at h
    | cons q qs =>
      rw [List.flatMap_cons, List.flatMap_cons] at h
      have hpr := (hp.ordered p List.mem_cons_self).reads (hp.head_closed (rfl : headKind [] = _))
      have hqr := (hq.ordered q List.mem_cons_self).reads (hq.head_closed (rfl : headKind [] = _))
      simp only [List.append_nil] at hpr hqr
      rw [h] at hpr
      obtain ⟨rfl, hrest⟩ := hpr.unique hqr
      rw [ih hp.tail hq.tail hrest]

/-! ## Programs -/

theorem parseProgram_nil (fin : Location) : parseProgram g fin [] = ⟨.ok [], []⟩ := by
  rw [parseProgram]

theorem parseProgram_eof (fin : Location) {ts : List Token} (h : headKind ts = .eof) :
    parseProgram g fin ts = ⟨.ok [], ts⟩ := by
  cases ts with
  | nil => exact parseProgram_nil fin
  | cons t ts =>
    replace h : t.kind = .eof := h
    rw [parseProgram, if_pos h]

theorem parseProgram_of_ok {fin : Location} {t : Token} {ts rest : List Token} {e : Expr}
    (ht : t.kind ≠ .eof) (h : parseExpr g fin Kind.leastPower (t :: ts) = ⟨.ok e, rest⟩) :
    parseProgram g fin (t :: ts) = (parseProgram g fin rest).map (e :: ·) := by
  rw [parseProgram, if_neg ht]
  dsimp only
  split
  · rename_i hs _
    rw [h] at hs
    cases hs
  · rename_i hs _
    rw [h] at hs
    cases hs
    rfl

theorem parseProgram_of_error {fin : Location} {t : Token} {ts rest : List Token}
    {err : Located ParseError} (ht : t.kind ≠ .eof)
    (h : parseExpr g fin Kind.leastPower (t :: ts) = ⟨.error err, rest⟩) :
    parseProgram g fin (t :: ts) = ⟨.error err, rest⟩ := by
  rw [parseProgram, if_neg ht]
  dsimp only
  split
  · rename_i hs _
    rw [h] at hs
    cases hs
    rfl
  · rename_i hs _
    rw [h] at hs
    cases hs

/-- **Programs.** Parsing a program succeeds on a sentence in front of the end of the input. -/
theorem parseProgram_ok_iff {fin : Location} {ts rest : List Token} {prog : Program} :
    parseProgram g fin ts = ⟨.ok prog, rest⟩ ↔
      ∃ ps, Sentence g.precedence ps ∧ ts = ps.flatMap Phrase.yield ++ rest ∧
        ps.map Phrase.expr = prog ∧ headKind rest = .eof := by
  constructor
  · intro h
    induction hn : ts.length using Nat.strongRecOn generalizing ts prog with
    | ind n ih =>
      by_cases hts : headKind ts = .eof
      · rw [parseProgram_eof fin hts] at h
        cases h
        exact ⟨[], ⟨by simp, by simp⟩, rfl, rfl, hts⟩
      · cases ts with
        | nil => exact absurd rfl hts
        | cons t ts =>
          rcases hq : parseExpr g fin Kind.leastPower (t :: ts) with ⟨_ | e, us⟩
          · rw [parseProgram_of_error hts hq] at h; cases h
          · rw [parseProgram_of_ok hts hq] at h
            obtain ⟨prog', hprog, rfl⟩ := ParseStep.map_ok h
            obtain ⟨p, hp, hy, rfl, hus⟩ := parseExpr_leastPower_ok_iff.1 hq
            have hlt : us.length < n := by
              rw [← hn, hy, List.length_append]
              have := List.length_pos_iff.2 p.yield_ne_nil
              omega
            obtain ⟨ps, hps, rfl, rfl, hrest⟩ := ih us.length hlt hprog rfl
            refine ⟨p :: ps, ⟨?_, ?_⟩, by rw [hy]; simp, rfl, hrest⟩
            · intro q hq
              rcases List.mem_cons.1 hq with rfl | hq
              · exact hp
              · exact hps.ordered q hq
            · intro q hq
              cases ps with
              | nil => cases hq
              | cons q' ps =>
                rcases List.mem_cons.1 hq with rfl | hq
                · -- the first of them starts where the phrase in front of it has stopped
                  rw [List.flatMap_cons, List.append_assoc, q.headKind_yield_append] at hus
                  exact Int.le_antisymm hus (Kind.leastPower_le_power _)
                · exact hps.apart q hq
  · rintro ⟨ps, hps, rfl, rfl, hrest⟩
    induction ps with
    | nil => exact parseProgram_eof fin hrest
    | cons p ps ih =>
      have hq : parseExpr g fin Kind.leastPower (p.yield ++ (ps.flatMap Phrase.yield ++ rest)) =
          ⟨.ok p.expr, ps.flatMap Phrase.yield ++ rest⟩ :=
        parseExpr_leastPower_ok_iff.2
          ⟨p, hps.ordered p List.mem_cons_self, rfl, rfl, hps.head_closed hrest⟩
      rw [List.flatMap_cons, List.append_assoc]
      cases hy : p.yield with
      | nil => exact absurd hy p.yield_ne_nil
      | cons t ts =>
        have ht : t.kind ≠ .eof := Phrase.ne_eof_of_mem_yield (hy ▸ List.mem_cons_self)
        rw [hy] at hq
        rw [List.cons_append] at hq ⊢
        rw [parseProgram_of_ok ht hq, ih hps.tail]
        rfl

end Sentences

/-! ## The language -/

/-- Tokens before the end of the input are determined by what comes after them. -/
theorem eq_of_append_eof {ts us rest : List Token} {fin : Token}
    (hts : ∀ t ∈ ts, t.kind ≠ .eof) (hus : ∀ t ∈ us, t.kind ≠ .eof) (hfin : fin.kind = .eof)
    (hrest : headKind rest = .eof) (h : ts ++ [fin] = us ++ rest) : ts = us ∧ rest = [fin] := by
  induction ts generalizing us with
  | nil =>
    cases us with
    | nil => exact ⟨rfl, h.symm⟩
    | cons u us =>
      obtain ⟨rfl, -⟩ := List.cons.inj h
      exact absurd hfin (hus fin List.mem_cons_self)
  | cons t ts ih =>
    cases us with
    | nil =>
      rw [List.nil_append] at h
      subst h
      exact absurd hrest (hts t List.mem_cons_self)
    | cons u us =>
      rw [List.cons_append, List.cons_append] at h
      obtain ⟨rfl, h'⟩ := List.cons.inj h
      obtain ⟨rfl, hr⟩ := ih (fun t ht => hts t (List.mem_cons_of_mem _ ht))
        (fun t ht => hus t (List.mem_cons_of_mem _ ht)) h'
      exact ⟨rfl, hr⟩

/-- No token of a sentence is the end of the input. -/
theorem ne_eof_of_mem_sentence {ps : List Phrase} {t : Token} (h : t ∈ ps.flatMap Phrase.yield) :
    t.kind ≠ .eof := by
  obtain ⟨p, -, ht⟩ := List.mem_flatMap.1 h
  exact Phrase.ne_eof_of_mem_yield ht

/-- Parses a whole list of tokens under some grouping. -/
def parseWith (g : Grouping) (ts : List Token) : Except (Located ParseError) Program :=
  (parseProgram g (endLocation ts) ts).result

/-- Parsing succeeds on a sentence in front of the end of the input. -/
theorem parseWith_eq_ok_iff {g : Grouping} {ts : List Token} {prog : Program} :
    parseWith g ts = .ok prog ↔
      ∃ ps rest, Sentence g.precedence ps ∧ ts = ps.flatMap Phrase.yield ++ rest ∧
        ps.map Phrase.expr = prog ∧ headKind rest = .eof := by
  unfold parseWith
  constructor
  · intro h
    rcases hs : parseProgram g (endLocation ts) ts with ⟨result, rest⟩
    rw [hs] at h
    subst h
    obtain ⟨ps, hps⟩ := parseProgram_ok_iff.1 hs
    exact ⟨ps, rest, hps⟩
  · rintro ⟨ps, rest, hps⟩
    rw [parseProgram_ok_iff.2 ⟨ps, hps⟩]

theorem parse_eq_ok_iff {ts : List Token} {prog : Program} :
    parse ts = .ok prog ↔
      ∃ ps rest, Sentence .standard ps ∧ ts = ps.flatMap Phrase.yield ++ rest ∧
        ps.map Phrase.expr = prog ∧ headKind rest = .eof := by
  rw [← Grouping.precedence_standard]
  exact parseWith_eq_ok_iff

/-- **The parser accepts its grammar.** On tokens `ts` followed by the end of the input, parsing
yields a program exactly when `ts` are the tokens of a sentence that stands for it, and `ts` are the
tokens of one sentence at most. -/
theorem parse_ok_iff_sentence {ts : List Token} {fin : Token} (hts : ∀ t ∈ ts, t.kind ≠ .eof)
    (hfin : fin.kind = .eof) :
    (∀ prog, parse (ts ++ [fin]) = .ok prog ↔
      ∃ ps, Sentence .standard ps ∧ ps.flatMap Phrase.yield = ts ∧ ps.map Phrase.expr = prog) ∧
    ∀ ps qs, Sentence .standard ps → Sentence .standard qs → ps.flatMap Phrase.yield = ts →
      qs.flatMap Phrase.yield = ts → ps = qs := by
  refine ⟨fun prog => ⟨fun h => ?_, ?_⟩, fun ps qs hp hq hpy hqy => ?_⟩
  · obtain ⟨ps, rest, hps, hy, hprog, hrest⟩ := parse_eq_ok_iff.1 h
    obtain ⟨rfl, -⟩ := eq_of_append_eof hts (fun _ => ne_eof_of_mem_sentence) hfin hrest hy
    exact ⟨ps, hps, rfl, hprog⟩
  · rintro ⟨ps, hps, rfl, hprog⟩
    exact parse_eq_ok_iff.2 ⟨ps, [fin], hps, rfl, hprog, hfin⟩
  · rw [← Grouping.precedence_standard] at hp hq
    exact hp.unique hq (hpy.trans hqy.symm)

private def operandTokens : List Token :=
  [⟨.logicNot, "!", .nowhere⟩, ⟨.identifier, "a", .nowhere⟩,
    ⟨.binary (.logic .and), "&&", .nowhere⟩, ⟨.binary (.arith .add), "+", .nowhere⟩,
    ⟨.integer, "5", .nowhere⟩, ⟨.binary (.arith .mul), "*", .nowhere⟩, ⟨.integer, "3", .nowhere⟩,
    ⟨.binary (.arith .div), "/", .nowhere⟩, ⟨.integer, "2", .nowhere⟩,
    ⟨.binary .equal, "==", .nowhere⟩, ⟨.bitNot, "~", .nowhere⟩, ⟨.identifier, "b", .nowhere⟩,
    ⟨.leftParen, "(", .nowhere⟩, ⟨.binary (.arith .sub), "-", .nowhere⟩,
    ⟨.identifier, "b", .nowhere⟩, ⟨.binary (.arith .add), "+", .nowhere⟩,
    ⟨.integer, "1", .nowhere⟩, ⟨.rightParen, ")", .nowhere⟩]

/-- In `!a && +5 * 3 / 2 == ~b (-b + 1)` the prefix operators take what is next to them, but the
minus takes the sum. Multiplication groups to the right and division to the left, on one level. The
parenthesis starts a second expression. -/
theorem parse_ok_prefixes_and_levels :
    parse (operandTokens ++ [.eofAt .nowhere]) =
      .ok [.binary .nowhere .unknown (.logic .and)
          (.unary .nowhere .unknown .logicNot (.var .nowhere .unknown "a"))
          (.binary .nowhere .unknown .equal
            (.binary .nowhere .unknown (.arith .mul)
              (.unary .nowhere .unknown .plus (.int .nowhere 5))
              (.binary .nowhere .unknown (.arith .div) (.int .nowhere 3) (.int .nowhere 2)))
            (.unary .nowhere .unknown .bitNot (.var .nowhere .unknown "b"))),
        .unary .nowhere .unknown .minus
          (.binary .nowhere .unknown (.arith .add) (.var .nowhere .unknown "b")
            (.int .nowhere 1))] := by
  let a : Phrase := .atom ⟨.identifier, "a", .nowhere⟩ (.var .nowhere .unknown "a") rfl
  let b : Phrase := .atom ⟨.identifier, "b", .nowhere⟩ (.var .nowhere .unknown "b") rfl
  let five : Phrase := .prefixed ⟨.binary (.arith .add), "+", .nowhere⟩ (.unary .plus)
    (.atom ⟨.integer, "5", .nowhere⟩ (.int .nowhere 5) rfl) rfl
  let quotient : Phrase := .infixed ⟨.binary (.arith .div), "/", .nowhere⟩ (.arith .div)
    (.atom ⟨.integer, "3", .nowhere⟩ (.int .nowhere 3) rfl)
    (.atom ⟨.integer, "2", .nowhere⟩ (.int .nowhere 2) rfl) rfl
  let equation : Phrase := .infixed ⟨.binary .equal, "==", .nowhere⟩ .equal
    (.infixed ⟨.binary (.arith .mul), "*", .nowhere⟩ (.arith .mul) five quotient rfl)
    (.prefixed ⟨.bitNot, "~", .nowhere⟩ (.unary .bitNot) b rfl) rfl
  let first : Phrase := .infixed ⟨.binary (.logic .and), "&&", .nowhere⟩ (.logic .and)
    (.prefixed ⟨.logicNot, "!", .nowhere⟩ (.unary .logicNot) a rfl) equation rfl
  let second : Phrase := .paren ⟨.leftParen, "(", .nowhere⟩
    (.prefixed ⟨.binary (.arith .sub), "-", .nowhere⟩ (.unary .minus)
      (.infixed ⟨.binary (.arith .add), "+", .nowhere⟩ (.arith .add) b
        (.atom ⟨.integer, "1", .nowhere⟩ (.int .nowhere 1) rfl) rfl) rfl)
    ⟨.rightParen, ")", .nowhere⟩ rfl rfl
  have hequation : equation.WellPrecedenced .standard :=
    ⟨⟨⟨trivial, by decide⟩, ⟨trivial, trivial, by decide, by decide⟩, by decide, by decide⟩,
      ⟨trivial, by decide⟩, by decide, by decide⟩
  have hfirst : first.WellPrecedenced .standard :=
    ⟨⟨trivial, by decide⟩, hequation, by decide, by decide⟩
  have hsecond : second.WellPrecedenced .standard :=
    ⟨⟨trivial, trivial, by decide, by decide⟩, by decide⟩
  refine ((parse_ok_iff_sentence (by decide) rfl).1 _).2 ⟨[first, second], ⟨?_, ?_⟩, rfl, rfl⟩
  · intro p hp
    rcases List.mem_cons.1 hp with rfl | hp
    · exact hfirst
    · rw [List.mem_singleton.1 hp]
      exact hsecond
  · intro p hp
    rw [List.mem_singleton.1 hp]
    rfl

end Reckon

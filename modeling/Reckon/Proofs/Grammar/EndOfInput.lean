import Reckon.Proofs.Grammar.Sentence

/-!
# The end of the input

The end of the input is seen in two ways: as a token, or because no token is left. In both cases it
extends no expression, and an expression that should start there fails at its location. So parsing
never gets behind it, and it makes no difference in which way it is seen.

* `EndsAt fin tail loc`: `tail` is seen as the end of the input, at `loc`.
* `EndsAt.parseExpr_parallel`: the same tokens in front of two such ends are parsed alike, at every
  threshold that the parser uses.
* `EndsAt.parseProgram_result_eq`, `parse_append_end`: so are programs, and whole lists of tokens.
-/

namespace Reckon

open Token (Kind)

/-! ## Ends -/

/-- The tokens `tail` are seen as the end of the input at `loc`, where `fin` is the location behind
all tokens. -/
inductive EndsAt (fin : Location) : List Token → Location → Prop
  | nil : EndsAt fin [] fin
  | eof {t : Token} (ht : t.kind = .eof) (rest : List Token) : EndsAt fin (t :: rest) t.loc

namespace EndsAt

variable {g : Grouping} {fin loc : Location} {tail : List Token}

theorem headKind_eq (h : EndsAt fin tail loc) : headKind tail = .eof := by
  cases h with
  | nil => rfl
  | eof ht rest => exact ht

/-- No expression starts at the end. -/
theorem parseExpr_result (h : EndsAt fin tail loc) (k : Int) :
    (parseExpr g fin k tail).result = .error ⟨loc, .endOfInput⟩ := by
  cases h with
  | nil => rw [parseExpr_nil]
  | eof ht rest => simp only [parseExpr_cons, seed_eq, ht]

/-- The end extends no expression. -/
theorem extend_eq (h : EndsAt fin tail loc) {k : Int} (hk : Kind.leastPower ≤ k) (left : Expr) :
    extend g fin k left tail = ⟨.ok left, tail⟩ := by
  cases h with
  | nil => rw [extend_nil, if_neg (Int.not_lt.2 hk)]
  | @eof t ht rest =>
    have hpower : t.kind.power ≤ k := by rw [ht]; exact hk
    rw [extend_cons, if_neg (Int.not_lt.2 hpower)]

/-- The end closes no parenthesis. -/
theorem closeParen_eq (h : EndsAt fin tail loc) (l : Location) (e : Expr) :
    closeParen l ⟨.ok e, tail⟩ = ⟨.error ⟨l, .missingRightParen .eof⟩, tail⟩ := by
  cases h with
  | nil => rfl
  | eof ht rest => simp [closeParen, ht]

end EndsAt

/-! ## Steps in front of two ends -/

/-- Two steps that end alike: with the same error, or with the same result and the same tokens in
front of `tail` and of `tail'`. -/
def ParseStep.Parallel {α : Type} (tail tail' : List Token) (s s' : ParseStep α) : Prop :=
  (∃ err us us', s = ⟨.error err, us⟩ ∧ s' = ⟨.error err, us'⟩) ∨
    ∃ a front, s = ⟨.ok a, front ++ tail⟩ ∧ s' = ⟨.ok a, front ++ tail'⟩

namespace ParseStep.Parallel

variable {α β : Type} {tail tail' : List Token} {s s' : ParseStep α}

theorem map (h : s.Parallel tail tail' s') (f : α → β) :
    (s.map f).Parallel tail tail' (s'.map f) := by
  rcases h with ⟨err, us, us', rfl, rfl⟩ | ⟨a, front, rfl, rfl⟩
  · exact .inl ⟨err, us, us', rfl, rfl⟩
  · exact .inr ⟨f a, front, rfl, rfl⟩

end ParseStep.Parallel

theorem closeParen_error (l : Location) (err : Located ParseError) (rest : List Token) :
    closeParen l ⟨.error err, rest⟩ = ⟨.error err, rest⟩ := by
  cases rest <;> rfl

theorem Grouping.leastPower_le_threshold_of_lt {g : Grouping} {kind : Kind}
    (h : Kind.leastPower < kind.power) : Kind.leastPower ≤ g.threshold kind := by
  unfold Grouping.threshold
  split <;> omega

namespace EndsAt

variable {g : Grouping} {fin fin' loc : Location} {tail tail' : List Token}

theorem closeParen_parallel (h : EndsAt fin tail loc) (h' : EndsAt fin' tail' loc) (l : Location)
    {s s' : ParseStep Expr} (hs : s.Parallel tail tail' s') :
    (closeParen l s).Parallel tail tail' (closeParen l s') := by
  rcases hs with ⟨err, us, us', rfl, rfl⟩ | ⟨e, front, rfl, rfl⟩
  · rw [closeParen_error, closeParen_error]
    exact .inl ⟨err, us, us', rfl, rfl⟩
  · cases front with
    | nil =>
      rw [List.nil_append, List.nil_append, h.closeParen_eq, h'.closeParen_eq]
      exact .inl ⟨_, tail, tail', rfl, rfl⟩
    | cons t front =>
      simp only [List.cons_append, closeParen]
      split
      · exact .inr ⟨e, front, rfl, rfl⟩
      · exact .inl ⟨_, _, _, rfl, rfl⟩

theorem seed_parallel (h : EndsAt fin tail loc) (h' : EndsAt fin' tail' loc) (t : Token)
    {front : List Token}
    (hexpr : ∀ k, Kind.leastPower ≤ k → (parseExpr g fin k (front ++ tail)).Parallel tail tail'
      (parseExpr g fin' k (front ++ tail'))) :
    (seed g fin t (front ++ tail)).Parallel tail tail' (seed g fin' t (front ++ tail')) := by
  have hleast := hexpr _ (Int.le_refl _)
  rw [seed_eq, seed_eq]
  split
  · exact closeParen_parallel h h' t.loc hleast
  · exact hleast.map _
  · split
    · exact .inr ⟨_, front, rfl, rfl⟩
    · exact .inl ⟨_, _, _, rfl, rfl⟩
  · exact .inr ⟨_, front, rfl, rfl⟩
  · exact .inr ⟨_, front, rfl, rfl⟩
  · exact .inl ⟨_, _, _, rfl, rfl⟩
  · split
    · rename_i op _
      exact (hexpr _ op.leastPower_le_threshold).map _
    · exact .inl ⟨_, _, _, rfl, rfl⟩

/-- The induction is on the tokens in front of the end: the operand to the right is parsed from
fewer of them, and what is behind it is extended in turn. -/
theorem extend_parallel (h : EndsAt fin tail loc) (h' : EndsAt fin' tail' loc) {k : Int}
    (hk : Kind.leastPower ≤ k) (left : Expr) {front : List Token}
    (hexpr : ∀ us : List Token, us.length < front.length → ∀ k, Kind.leastPower ≤ k →
      (parseExpr g fin k (us ++ tail)).Parallel tail tail' (parseExpr g fin' k (us ++ tail'))) :
    (extend g fin k left (front ++ tail)).Parallel tail tail'
      (extend g fin' k left (front ++ tail')) := by
  induction hn : front.length using Nat.strongRecOn generalizing front left with
  | ind n ih =>
    subst hn
    cases front with
    | nil =>
      rw [List.nil_append, List.nil_append, h.extend_eq hk, h'.extend_eq hk]
      exact .inr ⟨left, [], rfl, rfl⟩
    | cons t front =>
      rw [List.cons_append, List.cons_append, extend_cons, extend_cons]
      split
      · rename_i hpower
        have hthreshold : Kind.leastPower ≤ g.threshold t.kind :=
          Grouping.leastPower_le_threshold_of_lt (Int.lt_of_le_of_lt hk hpower)
        have hrest := parseExpr_rest g fin (g.threshold t.kind) (front ++ tail)
        rcases hexpr front (Nat.lt_succ_self _) _ hthreshold with
          ⟨err, us, us', hs, hs'⟩ | ⟨right, us, hs, hs'⟩
        · rw [hs, hs']
          exact .inl ⟨err, us, us', rfl, rfl⟩
        · rw [hs] at hrest
          rw [hs, hs']
          have hus : us.length < (t :: front).length := by
            have hlen := (hrest.trans (List.tail_suffix _)).length_le
            rw [List.length_append, List.length_append] at hlen
            rw [List.length_cons]
            omega
          dsimp only
          cases join left t right with
          | error err => exact .inl ⟨err, _, _, rfl, rfl⟩
          | ok e => exact ih us.length hus e (fun vs hvs => hexpr vs (Nat.lt_trans hvs hus)) rfl
      · exact .inr ⟨left, t :: front, rfl, rfl⟩

/-- **Expressions** in front of two ends at the same location are parsed alike. -/
theorem parseExpr_parallel (h : EndsAt fin tail loc) (h' : EndsAt fin' tail' loc) {k : Int}
    (hk : Kind.leastPower ≤ k) (front : List Token) :
    (parseExpr g fin k (front ++ tail)).Parallel tail tail'
      (parseExpr g fin' k (front ++ tail')) := by
  induction hn : front.length using Nat.strongRecOn generalizing front k with
  | ind n ih =>
    subst hn
    cases front with
    | nil =>
      have hs := h.parseExpr_result (g := g) k
      have hs' := h'.parseExpr_result (g := g) k
      refine .inl ⟨⟨loc, .endOfInput⟩, (parseExpr g fin k tail).rest,
        (parseExpr g fin' k tail').rest, ?_, ?_⟩
      · rw [← hs]; rfl
      · rw [← hs']; rfl
    | cons t front =>
      have hseed := h.seed_parallel h' t fun k hk =>
        ih front.length (Nat.lt_succ_self _) hk front rfl
      have hrest := seed_rest g fin t (front ++ tail)
      rw [List.cons_append, List.cons_append, parseExpr_cons, parseExpr_cons]
      rcases hseed with ⟨err, us, us', hs, hs'⟩ | ⟨left, us, hs, hs'⟩
      · rw [hs, hs']
        exact .inl ⟨err, us, us', rfl, rfl⟩
      · rw [hs] at hrest
        rw [hs, hs']
        have hus : us.length < (t :: front).length := by
          have hlen := hrest.length_le
          rw [List.length_append, List.length_append] at hlen
          rw [List.length_cons]
          omega
        exact h.extend_parallel h' hk left fun vs hvs k hk =>
          ih vs.length (Nat.lt_trans hvs hus) hk vs rfl

/-- **Programs** in front of two ends at the same location are parsed alike. -/
theorem parseProgram_result_eq (h : EndsAt fin tail loc) (h' : EndsAt fin' tail' loc)
    (front : List Token) :
    (parseProgram g fin (front ++ tail)).result =
      (parseProgram g fin' (front ++ tail')).result := by
  induction hn : front.length using Nat.strongRecOn generalizing front with
  | ind n ih =>
    subst hn
    cases front with
    | nil =>
      rw [List.nil_append, List.nil_append, parseProgram_eof fin h.headKind_eq,
        parseProgram_eof fin' h'.headKind_eq]
    | cons t front =>
      by_cases ht : t.kind = .eof
      · have hhead (rest : List Token) : headKind (t :: rest) = .eof := ht
        rw [List.cons_append, List.cons_append, parseProgram_eof fin (hhead _),
          parseProgram_eof fin' (hhead _)]
      · have hexpr := h.parseExpr_parallel (g := g) h' (Int.le_refl _) (t :: front)
        have hrest := parseExpr_rest g fin Kind.leastPower (t :: front ++ tail)
        rw [List.cons_append, List.cons_append] at hexpr ⊢
        rcases hexpr with ⟨err, us, us', hs, hs'⟩ | ⟨e, us, hs, hs'⟩
        · rw [parseProgram_of_error ht hs, parseProgram_of_error ht hs']
        · rw [List.cons_append, hs] at hrest
          have hus : us.length < (t :: front).length := by
            have hlen := hrest.length_le
            rw [List.tail_cons, List.length_append, List.length_append] at hlen
            rw [List.length_cons]
            omega
          rw [parseProgram_of_ok ht hs, parseProgram_of_ok ht hs', ParseStep.map, ParseStep.map,
            ih us.length hus us rfl]

end EndsAt

/-! ## Whole lists of tokens -/

theorem parse_append_end {ts tail tail' : List Token} {loc : Location}
    (h : EndsAt (endLocation (ts ++ tail)) tail loc)
    (h' : EndsAt (endLocation (ts ++ tail')) tail' loc) :
    parse (ts ++ tail) = parse (ts ++ tail') :=
  h.parseProgram_result_eq h' ts

theorem endLocation_of_getLast? {ts : List Token} {last : Token} (h : ts.getLast? = some last) :
    endLocation ts = last.loc := by
  rw [endLocation, h]

/-- **The end of the input is robust.** What stands behind an end token makes no difference to the
program that is parsed, or to the error and its location. Tokens without an end token are parsed as
if there were one behind them, at the location of the last of them. -/
theorem parse_robust_at_end :
    (∀ (ts : List Token) (fin : Token) (rest : List Token), fin.kind = .eof →
      parse (ts ++ fin :: rest) = parse (ts ++ [fin])) ∧
    ∀ (ts : List Token) (last fin : Token), ts.getLast? = some last → fin.kind = .eof →
      fin.loc = last.loc → parse ts = parse (ts ++ [fin]) := by
  refine ⟨fun ts fin rest hfin => parse_append_end (.eof hfin rest) (.eof hfin []), ?_⟩
  intro ts last fin hlast hfin hloc
  have hend : EndsAt (endLocation (ts ++ [])) [] fin.loc := by
    rw [List.append_nil, hloc, ← endLocation_of_getLast? hlast]
    exact .nil
  calc parse ts
    _ = parse (ts ++ []) := by rw [List.append_nil]
    _ = parse (ts ++ [fin]) := parse_append_end hend (.eof hfin [])

private def unclosed : List Token :=
  [⟨.leftParen, "(", ⟨"a", 1, 1⟩⟩, ⟨.identifier, "x", ⟨"a", 1, 2⟩⟩]

private theorem parse_unclosed :
    parse (unclosed ++ [.eofAt ⟨"a", 1, 2⟩]) = .error ⟨⟨"a", 1, 1⟩, .missingRightParen .eof⟩ := by
  have hexpr : parseExpr .standard (endLocation (unclosed ++ [.eofAt ⟨"a", 1, 2⟩])) Kind.leastPower
      (unclosed ++ [.eofAt ⟨"a", 1, 2⟩]) =
        ⟨.error ⟨⟨"a", 1, 1⟩, .missingRightParen .eof⟩, [.eofAt ⟨"a", 1, 2⟩]⟩ := by
    simp [unclosed, parseExpr_cons, seed_eq, extend_cons, closeParen, Token.eofAt, Kind.power]
  exact congrArg ParseStep.result (parseProgram_of_error (by decide) hexpr)

/-- In `( x` the parenthesis that is missing is not found behind the end of the input, and it is
missed in the same way if there is no end token. -/
theorem parse_robust_unclosed :
    parse (unclosed ++ .eofAt ⟨"a", 1, 2⟩ :: [⟨.rightParen, ")", ⟨"a", 1, 3⟩⟩]) =
        .error ⟨⟨"a", 1, 1⟩, .missingRightParen .eof⟩ ∧
      parse unclosed = .error ⟨⟨"a", 1, 1⟩, .missingRightParen .eof⟩ :=
  ⟨(parse_robust_at_end.1 unclosed _ _ rfl).trans parse_unclosed,
    (parse_robust_at_end.2 unclosed _ (.eofAt ⟨"a", 1, 2⟩) rfl rfl rfl).trans parse_unclosed⟩

end Reckon

import Reckon.Proofs.Grammar.Sentence

/-!
# Parsing makes progress

The parser as a loop over the tokens at hand: behind the last token it sees the end of the input
again and again, and moves no further. Nothing in such a loop has to get shorter, so how deep its
calls are nested is counted and bounded: there are at most two calls for each token that is left,
and two more at the end.

* `exprWithin`, `seedWithin`, `extendWithin`, `programWithin`: the parser, given up when its calls
  are nested too deep.
* `exprWithin_eq`, `programWithin_eq`: it is never given up if enough calls are allowed, and then
  yields what `parseExpr` and `parseProgram` do.
* `power_le_of_parseExpr`: what an expression leaves does not bind tighter than the threshold, and
  below the least threshold there is no expression.
* `parsing_progresses`: what a call leaves begins at a position that is not before the one it has
  started at.
-/

namespace Reckon

open Token (Kind)

/-! ## Nested calls -/

/-- The token at hand; behind the last one it is the end of the input. -/
def currentToken (fin : Location) : List Token → Token
  | [] => .eofAt fin
  | t :: _ => t

mutual

/-- Parses an expression at a threshold with at most so many calls nested. -/
def exprWithin (g : Grouping) (fin : Location) :
    Nat → Int → List Token → Option (ParseStep Expr)
  | 0, _, _ => none
  | n + 1, k, ts =>
    match seedWithin g fin n (currentToken fin ts) ts.tail with
    | some ⟨.ok left, rest⟩ => extendWithin g fin n k left rest
    | stopped => stopped

/-- Parses the expression that the token `t` starts, with at most so many calls nested. -/
def seedWithin (g : Grouping) (fin : Location) :
    Nat → Token → List Token → Option (ParseStep Expr)
  | 0, _, _ => none
  | n + 1, t, ts =>
    match t.kind with
    | .leftParen => (exprWithin g fin n Kind.leastPower ts).map (closeParen t.loc)
    | .print => (exprWithin g fin n Kind.leastPower ts).map (.map (.print t.loc))
    | .integer =>
      match Literal.word? t.spelling with
      | some i => some ⟨.ok (.int t.loc i), ts⟩
      | none => some ⟨.error ⟨t.loc, .integerLiteral t.spelling⟩, ts⟩
    | .bool b => some ⟨.ok (.bool t.loc b), ts⟩
    | .identifier => some ⟨.ok (.var t.loc .unknown t.spelling), ts⟩
    | .eof => some ⟨.error ⟨t.loc, .endOfInput⟩, ts⟩
    | kind =>
      match kind.unaryOp? with
      | some op => (exprWithin g fin n op.threshold ts).map (.map (.unary t.loc .unknown op))
      | none => some ⟨.error ⟨t.loc, .unexpectedToken kind t.spelling⟩, ts⟩

/-- Extends the expression `left` by one operator after the other, each as one more nested call. -/
def extendWithin (g : Grouping) (fin : Location) :
    Nat → Int → Expr → List Token → Option (ParseStep Expr)
  | 0, _, _, _ => none
  | n + 1, k, left, ts =>
    if k < (currentToken fin ts).kind.power then
      match exprWithin g fin n (g.threshold (currentToken fin ts).kind) ts.tail with
      | some ⟨.ok right, rest⟩ =>
        match join left (currentToken fin ts) right with
        | .ok e => extendWithin g fin n k e rest
        | .error err => some ⟨.error err, rest⟩
      | stopped => stopped
    else some ⟨.ok left, ts⟩

end

/-- Parses expressions up to the end of the input, with at most so many calls nested. -/
def programWithin (g : Grouping) (fin : Location) :
    Nat → List Token → Option (ParseStep Program)
  | 0, _ => none
  | n + 1, ts =>
    if (currentToken fin ts).kind = .eof then some ⟨.ok [], ts⟩
    else
      match exprWithin g fin n Kind.leastPower ts with
      | some ⟨.ok e, rest⟩ => (programWithin g fin n rest).map (.map (e :: ·))
      | some ⟨.error err, rest⟩ => some ⟨.error err, rest⟩
      | none => none

/-! ## Termination -/

section Within

variable {g : Grouping} {fin : Location} {n : Nat} {ts : List Token}

theorem seedWithin_eq (t : Token)
    (h : ∀ k, exprWithin g fin n k ts = some (parseExpr g fin k ts)) :
    seedWithin g fin (n + 1) t ts = some (seed g fin t ts) := by
  rw [seedWithin, seed_eq]
  simp only [h, Option.map_some]
  cases t.kind with
  | integer => cases Literal.word? t.spelling <;> rfl
  | binary op =>
    dsimp only
    cases (Kind.binary op).unaryOp? <;> rfl
  | _ => rfl

theorem exprWithin_nil (hn : 2 ≤ n) (k : Int) :
    exprWithin g fin n k [] = some (parseExpr g fin k []) := by
  obtain ⟨n, rfl⟩ : ∃ m, n = m + 2 := ⟨n - 2, by omega⟩
  rw [parseExpr_nil]
  rfl

/-- The induction is on the tokens that are left. At their end, an operator is only looked for below
the least threshold, and its operand fails. -/
theorem extendWithin_eq (k : Int) (left : Expr)
    (h : ∀ us : List Token, us.length < ts.length → ∀ n k, 2 * us.length + 2 ≤ n →
      exprWithin g fin n k us = some (parseExpr g fin k us))
    (hn : 2 * ts.length + 3 ≤ n) :
    extendWithin g fin n k left ts = some (extend g fin k left ts) := by
  induction hlen : ts.length using Nat.strongRecOn generalizing ts left n with
  | ind len ih =>
    subst hlen
    obtain ⟨n, rfl⟩ : ∃ m, n = m + 1 := ⟨n - 1, by omega⟩
    cases ts with
    | nil =>
      rw [extendWithin, extend_nil, List.tail_nil, exprWithin_nil (by omega), parseExpr_nil]
      exact (apply_ite some _ _ _).symm
    | cons t ts =>
      rw [List.length_cons] at hn
      have hright := h ts (Nat.lt_succ_self _) n (g.threshold t.kind) (by omega)
      have hrest := (parseExpr_rest g fin (g.threshold t.kind) ts).trans (List.tail_suffix ts)
      rw [extendWithin, extend_cons]
      simp only [currentToken, List.tail_cons, hright]
      split
      · rcases hq : parseExpr g fin (g.threshold t.kind) ts with ⟨err | right, rest⟩
        · rfl
        · rw [hq] at hrest
          have hle : rest.length ≤ ts.length := hrest.length_le
          dsimp only
          cases join left t right with
          | error err => rfl
          | ok e =>
            refine ih rest.length (Nat.lt_succ_of_le hle) e (fun us hus => ?_) (by omega) rfl
            exact h us (Nat.lt_trans hus (Nat.lt_succ_of_le hle))
      · rfl

/-- **Expressions.** Two nested calls for each token, and two more, are enough. -/
theorem exprWithin_eq (hn : 2 * ts.length + 2 ≤ n) (k : Int) :
    exprWithin g fin n k ts = some (parseExpr g fin k ts) := by
  induction hlen : ts.length using Nat.strongRecOn generalizing ts n k with
  | ind len ih =>
    subst hlen
    cases ts with
    | nil => exact exprWithin_nil hn k
    | cons t ts =>
      rw [List.length_cons] at hn
      obtain ⟨n, rfl⟩ : ∃ m, n = m + 2 := ⟨n - 2, by omega⟩
      have hexpr (us : List Token) (hus : us.length < (t :: ts).length) (n : Nat) (k : Int)
          (hn : 2 * us.length + 2 ≤ n) :
          exprWithin g fin n k us = some (parseExpr g fin k us) := ih us.length hus hn k rfl
      have hseed := seedWithin_eq t fun k => hexpr ts (Nat.lt_succ_self _) n k (by omega)
      have hrest := seed_rest g fin t ts
      rw [exprWithin, parseExpr_cons]
      simp only [currentToken, List.tail_cons, hseed]
      rcases hs : seed g fin t ts with ⟨err | left, rest⟩
      · rfl
      · rw [hs] at hrest
        have hle : rest.length ≤ ts.length := hrest.length_le
        refine extendWithin_eq k left (fun us hus => ?_) (by omega)
        exact hexpr us (Nat.lt_trans hus (Nat.lt_succ_of_le hle))

/-- **Programs.** One call more is enough. -/
theorem programWithin_eq (hn : 2 * ts.length + 3 ≤ n) :
    programWithin g fin n ts = some (parseProgram g fin ts) := by
  induction hlen : ts.length using Nat.strongRecOn generalizing ts n with
  | ind len ih =>
    subst hlen
    obtain ⟨n, rfl⟩ : ∃ m, n = m + 1 := ⟨n - 1, by omega⟩
    cases ts with
    | nil => rw [parseProgram_nil]; rfl
    | cons t ts =>
      by_cases ht : t.kind = .eof
      · have hhead : headKind (t :: ts) = .eof := ht
        rw [parseProgram_eof fin hhead, programWithin]
        exact if_pos ht
      · have hexpr : exprWithin g fin n Kind.leastPower (t :: ts) =
            some (parseExpr g fin Kind.leastPower (t :: ts)) := exprWithin_eq (by omega) _
        have hrest := parseExpr_rest g fin Kind.leastPower (t :: ts)
        rw [programWithin]
        simp only [currentToken, ht, if_false, hexpr]
        rcases hq : parseExpr g fin Kind.leastPower (t :: ts) with ⟨err | e, rest⟩
        · rw [parseProgram_of_error ht hq]
        · rw [hq] at hrest
          have hle : rest.length ≤ ts.length := hrest.length_le
          rw [List.length_cons] at hn
          rw [parseProgram_of_ok ht hq]
          dsimp only
          rw [ih rest.length (Nat.lt_succ_of_le hle) (by omega) rfl]
          rfl

end Within

/-! ## Thresholds -/

section Thresholds

variable {g : Grouping} {fin : Location} {k : Int} {ts rest : List Token} {e : Expr}

/-- What an expression leaves does not bind tighter than the threshold. -/
theorem power_le_of_parseExpr (h : parseExpr g fin k ts = ⟨.ok e, rest⟩) :
    (headKind rest).power ≤ k := by
  replace h : resume g fin k none ts = ⟨.ok e, rest⟩ := h
  obtain ⟨p, hp, -⟩ := exists_reads_of_parse h
  exact (hp.fits fun _ hl => by cases hl).2.2

/-- So there is no expression at a threshold below the least one. -/
theorem leastPower_le_of_parseExpr (h : parseExpr g fin k ts = ⟨.ok e, rest⟩) :
    Kind.leastPower ≤ k :=
  Int.le_trans (Kind.leastPower_le_power _) (power_le_of_parseExpr h)

theorem ne_nil_of_parseExpr (h : parseExpr g fin k ts = ⟨.ok e, rest⟩) : ts ≠ [] := by
  rintro rfl
  rw [parseExpr_nil] at h
  cases h

end Thresholds

/-! ## Positions -/

theorem parseProgram_rest (g : Grouping) (fin : Location) (ts : List Token) :
    (parseProgram g fin ts).rest <:+ ts := by
  induction hlen : ts.length using Nat.strongRecOn generalizing ts with
  | ind len ih =>
    subst hlen
    by_cases hts : headKind ts = .eof
    · exact ⟨[], congrArg ParseStep.rest (parseProgram_eof fin hts)⟩
    · cases ts with
      | nil => exact absurd rfl hts
      | cons t ts =>
        have hrest := parseExpr_rest g fin Kind.leastPower (t :: ts)
        rcases hq : parseExpr g fin Kind.leastPower (t :: ts) with ⟨err | e, rest⟩
        · rw [hq] at hrest
          rw [parseProgram_of_error hts hq]
          exact hrest.trans (List.suffix_cons t ts)
        · rw [hq] at hrest
          rw [parseProgram_of_ok hts hq]
          have hnext := ih rest.length (Nat.lt_succ_of_le hrest.length_le) rest rfl
          exact (hnext.trans hrest).trans (List.suffix_cons t ts)

theorem headKind_of_parseProgram {g : Grouping} {fin : Location} {ts rest : List Token}
    {p : Program} (h : parseProgram g fin ts = ⟨.ok p, rest⟩) : headKind rest = .eof := by
  obtain ⟨ps, -, -, -, hrest⟩ := parseProgram_ok_iff.1 h
  exact hrest

/-- What is left of the tokens from a position on begins at a later position. -/
theorem exists_position {ts rest : List Token} {pos : Nat} (hpos : pos ≤ ts.length)
    (h : rest <:+ ts.drop pos) :
    ∃ pos', rest = ts.drop pos' ∧ pos ≤ pos' ∧ pos' + rest.length = ts.length := by
  have hlen := h.length_le
  rw [List.length_drop] at hlen
  have hts := h.trans (List.drop_suffix pos ts)
  exact ⟨ts.length - rest.length, List.suffix_iff_eq_drop.1 hts, by omega, by omega⟩

/-- **Parsing terminates and makes progress.** Let `ts` be any tokens and `pos` a position in them.
Parsing an expression from there on ends at every threshold, since its calls are nested no deeper
than twice for each token that is left and twice more. It ends at a position that is not before
`pos`, and behind it if a token was left. If it yields an expression, it has consumed something, and
the token at hand does not bind tighter than the threshold; below the least threshold it yields
none. Parsing a program ends, too, at a position that is not before `pos`, and if it yields a
program the end of the input is at hand. -/
theorem parsing_progresses (ts : List Token) (pos : Nat) (hpos : pos ≤ ts.length) :
    (∀ k : Int, ∃ result pos',
      (∀ n, 2 * (ts.length - pos) + 2 ≤ n →
        exprWithin .standard (endLocation ts) n k (ts.drop pos) =
          some ⟨result, ts.drop pos'⟩) ∧
      parseExpr .standard (endLocation ts) k (ts.drop pos) = ⟨result, ts.drop pos'⟩ ∧
      pos ≤ pos' ∧ pos' ≤ ts.length ∧ (pos < ts.length → pos < pos') ∧
      (∀ e, result = .ok e → pos < pos' ∧ (headKind (ts.drop pos')).power ≤ k) ∧
      (k < -1 → ∃ err, result = .error err)) ∧
    ∃ result pos',
      (∀ n, 2 * (ts.length - pos) + 3 ≤ n →
        programWithin .standard (endLocation ts) n (ts.drop pos) =
          some ⟨result, ts.drop pos'⟩) ∧
      parseProgram .standard (endLocation ts) (ts.drop pos) = ⟨result, ts.drop pos'⟩ ∧
      pos ≤ pos' ∧ pos' ≤ ts.length ∧
      ∀ p, result = .ok p → headKind (ts.drop pos') = .eof := by
  rw [← List.length_drop]
  refine ⟨fun k => ?_, ?_⟩
  · have hrest := parseExpr_rest .standard (endLocation ts) k (ts.drop pos)
    rcases hs : parseExpr .standard (endLocation ts) k (ts.drop pos) with ⟨result, rest⟩
    rw [hs] at hrest
    obtain ⟨pos', rfl, hle, hlen⟩ := exists_position hpos (hrest.trans (List.tail_suffix _))
    have hmoved : pos < ts.length → pos < pos' := by
      have hshort := hrest.length_le
      simp only [List.length_tail, List.length_drop] at hshort
      omega
    refine ⟨result, pos', fun n hn => ?_, rfl, hle, by omega, hmoved, ?_, fun hk => ?_⟩
    · rw [exprWithin_eq hn, hs]
    · rintro e rfl
      have hne := ne_nil_of_parseExpr hs
      rw [Ne, List.drop_eq_nil_iff, Nat.not_le] at hne
      exact ⟨hmoved hne, power_le_of_parseExpr hs⟩
    · cases result with
      | error err => exact ⟨err, rfl⟩
      | ok e => exact absurd hk (Int.not_lt.2 (leastPower_le_of_parseExpr hs))
  · have hrest := parseProgram_rest .standard (endLocation ts) (ts.drop pos)
    rcases hs : parseProgram .standard (endLocation ts) (ts.drop pos) with ⟨result, rest⟩
    rw [hs] at hrest
    obtain ⟨pos', rfl, hle, hlen⟩ := exists_position hpos hrest
    refine ⟨result, pos', fun n hn => ?_, rfl, hle, by omega, ?_⟩
    · rw [programWithin_eq hn, hs]
    · rintro p rfl
      exact headKind_of_parseProgram hs

/-- Below the least threshold, the loop goes on behind the only token `1`, where the end of the
input is seen again and again. Four nested calls are enough to see it fail. -/
theorem parsing_progresses_below_least :
    ∃ err pos', exprWithin .standard .nowhere 4 (-2) [⟨.integer, "1", .nowhere⟩] =
        some ⟨.error err, [⟨.integer, "1", .nowhere⟩].drop pos'⟩ ∧ 0 < pos' ∧ pos' ≤ 1 := by
  obtain ⟨result, pos', hwithin, -, -, hle, hmoved, -, hbelow⟩ :=
    (parsing_progresses [⟨.integer, "1", .nowhere⟩] 0 (Nat.zero_le _)).1 (-2)
  obtain ⟨err, rfl⟩ := hbelow (by decide)
  exact ⟨err, pos', hwithin 4 (Nat.le_refl _), hmoved (by decide), hle⟩

end Reckon

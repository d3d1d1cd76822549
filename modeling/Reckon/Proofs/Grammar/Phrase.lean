import Reckon.Proofs.Grammar.Precedence

/-!
# Phrases

The concrete syntax of expressions: trees over tokens that keep their parentheses. A phrase says
nothing about how it is found in a list of tokens; whether it stands where a table of binding powers
puts it is read off its two spines.

* `Phrase.yield`, `Phrase.expr`: the tokens of a phrase, and the expression it stands for.
* `Phrase.leftPowers`: the powers of the operators on the left spine.
* `Phrase.rightReach`: the thresholds of the operators on the right spine.
* `Phrase.WellPrecedenced`: no operand holds an operator, outside parentheses, that would have been
  read with the operator in front of it or behind it instead.
* `Sentence`: phrases in a row, none of which could go on the one before it.
-/

namespace Reckon

open Token (Kind)

/-! ## Atoms and operators between operands -/

/-- The expression with two given operands. -/
def BinaryOp.node (op : BinaryOp) (loc : Location) (left right : Expr) : Expr :=
  if op.isAssign then .assign loc .unknown op left right else .binary loc .unknown op left right

/-- The expression that a token is by itself. -/
def Token.atom? (t : Token) : Option Expr :=
  match t.kind with
  | .integer => (Literal.word? t.spelling).map (.int t.loc)
  | .bool b => some (.bool t.loc b)
  | .identifier => some (.var t.loc .unknown t.spelling)
  | _ => none

/-- The tokens that are an expression by themselves: literals and names. -/
theorem Token.atom?_eq_some {t : Token} {e : Expr} (h : t.atom? = some e) :
    (t.kind = .integer ∧ ∃ n, Literal.word? t.spelling = some n ∧ e = .int t.loc n) ∨
    (∃ b, t.kind = .bool b ∧ e = .bool t.loc b) ∨
    (t.kind = .identifier ∧ e = .var t.loc .unknown t.spelling) := by
  unfold Token.atom? at h
  split at h
  · rename_i hk
    obtain ⟨n, hn, rfl⟩ := Option.map_eq_some_iff.1 h
    exact .inl ⟨hk, n, hn, rfl⟩
  · rename_i b hk
    cases h
    exact .inr (.inl ⟨b, hk, rfl⟩)
  · rename_i hk
    cases h
    exact .inr (.inr ⟨hk, rfl⟩)
  · cases h

theorem join_binary {t : Token} {op : BinaryOp} (h : t.kind = .binary op) (left right : Expr) :
    join left t right = .ok (op.node t.loc left right) := by
  unfold join BinaryOp.node
  rw [h]
  dsimp only
  split <;> rfl

/-- Only the binary operators join two operands. -/
theorem join_ok {left right e : Expr} {t : Token} (h : join left t right = .ok e) :
    ∃ op, t.kind = .binary op ∧ e = op.node t.loc left right := by
  cases hk : t.kind with
  | binary op =>
    rw [join_binary hk] at h
    cases h
    exact ⟨op, rfl, rfl⟩
  | _ => simp [join, hk, Token.Kind.unaryOp?] at h

/-! ## Trees over tokens -/

/-- Concrete syntax trees. Each node has its tokens and the proof that they may stand there. -/
inductive Phrase
  | atom (t : Token) (e : Expr) (reads : t.atom? = some e)
  | paren (l : Token) (p : Phrase) (r : Token) (opens : l.kind = .leftParen)
      (closes : r.kind = .rightParen)
  | prefixed (t : Token) (op : PrefixOp) (p : Phrase) (stands : t.kind.prefixOp? = some op)
  | infixed (t : Token) (op : BinaryOp) (l r : Phrase) (stands : t.kind = .binary op)

namespace Phrase

/-- The tokens of a phrase in order. -/
def yield : Phrase → List Token
  | atom t _ _ => [t]
  | paren l p r _ _ => l :: (p.yield ++ [r])
  | prefixed t _ p _ => t :: p.yield
  | infixed t _ l r _ => l.yield ++ t :: r.yield

/-- The expression that a phrase stands for. -/
def expr : Phrase → Expr
  | atom _ e _ => e
  | paren _ p _ _ _ => p.expr
  | prefixed t op p _ => op.node t.loc p.expr
  | infixed t op l r _ => op.node t.loc l.expr r.expr

/-- The powers of the operators that stand between operands on the left spine. -/
def leftPowers (c : Precedence) : Phrase → List Int
  | infixed _ op l _ _ => c.power (.binary op) :: l.leftPowers c
  | _ => []

/-- How tight the operators on the right spine hold the operands to their right. -/
def rightReach (c : Precedence) : Phrase → List Int
  | prefixed _ op p _ => c.prefixReach op :: p.rightReach c
  | infixed _ op _ r _ => c.reach op :: r.rightReach c
  | _ => []

/-- Every operand holds what the binding powers give it: the operator behind a left operand binds no
tighter than any operator that is open at the end of it holds, and the operators at the start of a
right operand bind tighter than the operator in front of it holds. Parentheses start afresh. -/
def WellPrecedenced (c : Precedence) : Phrase → Prop
  | atom _ _ _ => True
  | paren _ p _ _ _ => p.WellPrecedenced c
  | prefixed _ op p _ => p.WellPrecedenced c ∧ ∀ k ∈ p.leftPowers c, c.prefixReach op < k
  | infixed _ op l r _ =>
    l.WellPrecedenced c ∧ r.WellPrecedenced c ∧
      (∀ k ∈ l.rightReach c, c.power (.binary op) ≤ k) ∧ ∀ k ∈ r.leftPowers c, c.reach op < k

end Phrase

/-- Phrases in a row. A phrase goes on as long as it can, so each one but the first starts with a
token that does not bind to what is in front of it. -/
structure Sentence (c : Precedence) (ps : List Phrase) : Prop where
  ordered : ∀ p ∈ ps, p.WellPrecedenced c
  apart : ∀ p ∈ ps.tail, c.power (headKind p.yield) = -1

/-! ## First tokens and bounds -/

theorem BinaryOp.leastPower_lt_power (op : BinaryOp) : Kind.leastPower < op.power := by
  have hall : ∀ op ∈ BinaryOp.all, Kind.leastPower < op.power := by decide
  exact hall op op.mem_all

theorem UnaryOp.leastPower_le_threshold (op : UnaryOp) : Kind.leastPower ≤ op.threshold := by
  cases op <;> decide

theorem PrefixOp.leastPower_le_threshold (op : PrefixOp) : Kind.leastPower ≤ op.threshold := by
  cases op with
  | print => exact Int.le_refl _
  | unary op => exact op.leastPower_le_threshold

theorem Grouping.leastPower_le_threshold (g : Grouping) (op : BinaryOp) :
    Kind.leastPower ≤ g.threshold (.binary op) := by
  have h := op.leastPower_lt_power
  unfold Grouping.threshold
  split
  · simp only [Kind.power]; omega
  · exact Int.le_of_lt h

theorem Token.ne_eof_of_atom? {t : Token} {e : Expr} (h : t.atom? = some e) : t.kind ≠ .eof := by
  intro hk
  simp [Token.atom?, hk] at h

/-- A token that is an expression by itself stands in front of no operand. -/
theorem Token.prefixOp?_of_atom? {t : Token} {e : Expr} (h : t.atom? = some e) :
    t.kind.prefixOp? = none := by
  rcases Token.atom?_eq_some h with ⟨hk, -⟩ | ⟨b, hk, -⟩ | ⟨hk, -⟩ <;> rw [hk] <;> rfl

theorem Token.Kind.ne_eof_of_prefixOp? {k : Kind} {op : PrefixOp} (h : k.prefixOp? = some op) :
    k ≠ .eof := by
  rintro rfl
  cases h

namespace Phrase

theorem yield_ne_nil (p : Phrase) : p.yield ≠ [] := by
  cases p <;> simp [yield]

theorem headKind_yield_append (p : Phrase) (ts : List Token) :
    headKind (p.yield ++ ts) = headKind p.yield := by
  cases h : p.yield with
  | nil => exact absurd h p.yield_ne_nil
  | cons t ts => rfl

/-- No token of a phrase is the end of the input. -/
theorem ne_eof_of_mem_yield {p : Phrase} {t : Token} (h : t ∈ p.yield) : t.kind ≠ .eof := by
  induction p with
  | atom u e hu =>
    obtain rfl := List.mem_singleton.1 h
    exact Token.ne_eof_of_atom? hu
  | paren l p r hl hr ih =>
    simp only [yield, List.mem_cons, List.mem_append, List.not_mem_nil, or_false] at h
    rcases h with rfl | h | rfl
    · rw [hl]; simp
    · exact ih h
    · rw [hr]; simp
  | prefixed u op p hu ih =>
    rcases List.mem_cons.1 h with rfl | h
    · exact Token.Kind.ne_eof_of_prefixOp? hu
    · exact ih h
  | infixed u op l r hu ihl ihr =>
    simp only [yield, List.mem_append, List.mem_cons] at h
    rcases h with h | rfl | h
    · exact ihl h
    · rw [hu]; simp
    · exact ihr h

theorem leastPower_lt_of_mem_leftPowers {g : Grouping} {p : Phrase} {k : Int}
    (h : k ∈ p.leftPowers g.precedence) : Kind.leastPower < k := by
  induction p with
  | infixed t op l r ht ihl _ =>
    rcases List.mem_cons.1 h with rfl | h
    · exact op.leastPower_lt_power
    · exact ihl h
  | _ => cases h

theorem leastPower_le_of_mem_rightReach {g : Grouping} {p : Phrase} {k : Int}
    (h : k ∈ p.rightReach g.precedence) : Kind.leastPower ≤ k := by
  induction p with
  | atom => cases h
  | paren => cases h
  | prefixed t op p ht ih =>
    rcases List.mem_cons.1 h with rfl | h
    · exact op.leastPower_le_threshold
    · exact ih h
  | infixed t op l r ht _ ihr =>
    rcases List.mem_cons.1 h with rfl | h
    · exact g.leastPower_le_threshold op
    · exact ihr h

end Phrase

end Reckon

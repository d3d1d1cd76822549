import Reckon.Proofs.Evaluation
import Reckon.Proofs.Token.Spacing
import Reckon.Proofs.Typing.Rules

/-!
# Sums and products of integers

The grammar of sums, differences and products as it is written in textbooks, with operators that
group to the left, and the integers that its sentences stand for. The words of a sentence are read
as another tree, since multiplication groups to the right, but the tree denotes the same integer
modulo `2 ^ 32`.

* `Arithmetic.Derivation`: the derivations in the grammar.
* `Derivation.words`, `Derivation.value`: the sentence and the integer of a derivation.
* `Derivation.written`, `Derivation.unextendable`: its words are tokens that can stand without gaps.
* `Denotes`: an expression yields a word and does nothing else.
* `Derivation.parse_words`: what is parsed from the words denotes the integer.
-/

namespace Reckon

open Token (Kind)

namespace Arithmetic

/-! ## The grammar -/

/-- A decimal numeral below `2 ^ 31`. -/
structure Numeral where
  digits : List Char
  ne_nil : digits ≠ []
  decimal : digits.all Char.isDigit = true
  small : Nat.ofDigitChars 10 digits 0 < 2147483648

/-- The number that a numeral denotes. -/
def Numeral.value (n : Numeral) : Nat := Nat.ofDigitChars 10 n.digits 0

/-- What a derivation starts from. -/
inductive Nonterminal
  | sum | term | factor

/-- Derivations: a sum is a term, or a sum plus or minus a term; a term is a factor, or a term times
a factor; a factor is a numeral, a numeral with a sign in parentheses, or a sum in parentheses. -/
inductive Derivation : Nonterminal → Type
  | ofTerm (t : Derivation .term) : Derivation .sum
  | add (e : Derivation .sum) (t : Derivation .term) : Derivation .sum
  | sub (e : Derivation .sum) (t : Derivation .term) : Derivation .sum
  | ofFactor (f : Derivation .factor) : Derivation .term
  | mul (t : Derivation .term) (f : Derivation .factor) : Derivation .term
  | numeral (n : Numeral) : Derivation .factor
  | negative (n : Numeral) : Derivation .factor
  | paren (e : Derivation .sum) : Derivation .factor

/-- The word of a numeral. -/
def Numeral.word (n : Numeral) : Kind × List Char := (.integer, n.digits)

/-- The word of a symbol. -/
def symbolWord (k : Kind) : Kind × List Char := (k, k.symbol)

namespace Derivation

/-- The sentence that is derived, word by word. -/
def words : {a : Nonterminal} → Derivation a → List (Kind × List Char)
  | _, ofTerm t => t.words
  | _, add e t => e.words ++ symbolWord (.binary (.arith .add)) :: t.words
  | _, sub e t => e.words ++ symbolWord (.binary (.arith .sub)) :: t.words
  | _, ofFactor f => f.words
  | _, mul t f => t.words ++ symbolWord (.binary (.arith .mul)) :: f.words
  | _, numeral n => [n.word]
  | _, negative n =>
    [symbolWord .leftParen, symbolWord (.binary (.arith .sub)), n.word, symbolWord .rightParen]
  | _, paren e => symbolWord .leftParen :: (e.words ++ [symbolWord .rightParen])

/-- The integer that is denoted. -/
def value : {a : Nonterminal} → Derivation a → Int
  | _, ofTerm t => t.value
  | _, add e t => e.value + t.value
  | _, sub e t => e.value - t.value
  | _, ofFactor f => f.value
  | _, mul t f => t.value * f.value
  | _, numeral n => n.value
  | _, negative n => -n.value
  | _, paren e => e.value

end Derivation

/-! ## Words -/

/-- The symbols of the grammar. -/
def symbols : List Kind :=
  [.leftParen, .rightParen, .binary (.arith .add), .binary (.arith .sub), .binary (.arith .mul)]

/-- The words of the grammar. -/
inductive IsWord : Kind × List Char → Prop
  | numeral (n : Numeral) : IsWord n.word
  | symbol {k : Kind} (hk : k ∈ symbols) : IsWord (symbolWord k)

theorem mem_symbolic_of_mem_symbols : ∀ k ∈ symbols, k ∈ Kind.symbolic := by decide

theorem Numeral.exists_cons (n : Numeral) :
    ∃ c cs, n.digits = c :: cs ∧ c.isDigit = true ∧ ∀ d ∈ cs, d.isDigit = true := by
  cases h : n.digits with
  | nil => exact absurd h n.ne_nil
  | cons c cs =>
    have hall := List.all_eq_true.1 (h ▸ n.decimal)
    exact ⟨c, cs, rfl, hall c List.mem_cons_self, fun d hd => hall d (List.mem_cons_of_mem c hd)⟩

theorem IsWord.written {x : Kind × List Char} (h : IsWord x) : Written x.1 x.2 := by
  cases h with
  | numeral n =>
    obtain ⟨c, cs, hn, hc, hcs⟩ := n.exists_cons
    simp only [Numeral.word, hn]
    exact .number hc hcs
  | symbol hk => exact .symbol (mem_symbolic_of_mem_symbols _ hk)

/-- No word begins with an equals sign. -/
theorem IsWord.head_ne {x : Kind × List Char} (h : IsWord x) : x.2.head? ≠ some '=' := by
  cases h with
  | numeral n =>
    obtain ⟨c, cs, hn, hc, -⟩ := n.exists_cons
    simp only [Numeral.word, hn]
    rintro ⟨⟩
    cases hc
  | @symbol k hk =>
    have hall : ∀ k ∈ symbols, k.symbol.head? ≠ some '=' := by decide
    exact hall k hk

/-- Only an equals sign makes a symbol of the grammar longer. -/
theorem unextendable_symbol {k : Kind} (hk : k ∈ symbols) {rest : List Char}
    (h : rest.head? ≠ some '=') : Unextendable k.symbol rest := by
  have hall : ∀ k ∈ symbols, ∀ k' ∈ Kind.symbolic, k.symbol <+: k'.symbol →
      k'.symbol = k.symbol ∨ k'.symbol = k.symbol ++ ['='] := by
    decide
  rintro c hc k' w' hw' ⟨m, rfl⟩
  have hpre : k.symbol <+: k.symbol ++ [c] ++ m := by
    rw [List.append_assoc]
    exact List.prefix_append _ _
  obtain ⟨hk', hsymbol⟩ := hw'.symbol_of_prefix (mem_symbolic_of_mem_symbols k hk) hpre
  rcases hall k hk k' hk' (hsymbol ▸ hpre) with heq | heq
  · rw [heq] at hsymbol
    have hlength := congrArg List.length hsymbol
    simp only [List.length_append, List.length_singleton] at hlength
    omega
  · rw [heq, List.append_assoc] at hsymbol
    cases List.append_cancel_left hsymbol
    exact h hc

/-- A numeral is made longer by a digit only. -/
theorem Numeral.unextendable (n : Numeral) {rest : List Char}
    (h : ∀ c ∈ rest.head?, c.isDigit = false) : Unextendable n.digits rest := by
  obtain ⟨c, cs, hn, hc, -⟩ := n.exists_cons
  rw [hn]
  rintro d hd k w' hw' ⟨m, rfl⟩
  have hdigit := hw'.isDigit_of_mem hc d (by simp)
  rw [h d hd] at hdigit
  cases hdigit

/-- Two words need a gap between them only if both are numerals. -/
theorem IsWord.unextendable {x y : Kind × List Char} (hx : IsWord x) (hy : IsWord y)
    (h : x.1 ≠ .integer ∨ y.1 ≠ .integer) : Unextendable x.2 y.2 := by
  cases hx with
  | numeral n =>
    cases hy with
    | numeral m => exact absurd rfl (h.resolve_left fun hne => hne rfl)
    | @symbol k hk =>
      have hmem := mem_symbolic_of_mem_symbols k hk
      exact n.unextendable fun c hc => (Kind.symbol_head_of_mem k hmem c hc).1
  | symbol hk => exact unextendable_symbol hk hy.head_ne

theorem isWord_between {ws ws' : List (Kind × List Char)} (h : ∀ x ∈ ws, IsWord x)
    (h' : ∀ x ∈ ws', IsWord x) {k : Kind} (hk : k ∈ symbols) :
    ∀ x ∈ ws ++ symbolWord k :: ws', IsWord x := by
  intro x hx
  rcases List.mem_append.1 hx with hx | hx
  · exact h x hx
  · rcases List.mem_cons.1 hx with rfl | hx
    · exact .symbol hk
    · exact h' x hx

/-- No numeral follows another one. -/
abbrev Apart (ws : List (Kind × List Char)) : Prop :=
  ws.IsChain fun x y => x.1 ≠ .integer ∨ y.1 ≠ .integer

theorem Apart.between {ws ws' : List (Kind × List Char)} (h : Apart ws) (h' : Apart ws') {k : Kind}
    (hk : k ≠ .integer) : Apart (ws ++ symbolWord k :: ws') := by
  refine List.isChain_append.2 ⟨h, List.isChain_cons.2 ⟨fun y _ => .inl hk, h'⟩, fun x _ y hy => ?_⟩
  cases hy
  exact .inr hk

namespace Derivation

variable {a : Nonterminal}

theorem isWord_of_mem (d : Derivation a) : ∀ x ∈ d.words, IsWord x := by
  have hnil : ∀ x ∈ [], IsWord x := fun x hx => by cases hx
  have hnumeral (n : Numeral) : ∀ x ∈ [n.word], IsWord x := by
    intro x hx
    rw [List.mem_singleton.1 hx]
    exact .numeral n
  induction d with
  | ofTerm t ih => exact ih
  | add e t ihe iht => exact isWord_between ihe iht (by decide)
  | sub e t ihe iht => exact isWord_between ihe iht (by decide)
  | ofFactor f ih => exact ih
  | mul t f iht ihf => exact isWord_between iht ihf (by decide)
  | numeral n => exact hnumeral n
  | negative n =>
    have hclosed := isWord_between (hnumeral n) hnil (k := .rightParen) (by decide)
    have hsigned := isWord_between hnil hclosed (k := .binary (.arith .sub)) (by decide)
    exact isWord_between hnil hsigned (k := .leftParen) (by decide)
  | paren e ih =>
    have hclosed := isWord_between ih hnil (k := .rightParen) (by decide)
    exact isWord_between hnil hclosed (k := .leftParen) (by decide)

theorem apart (d : Derivation a) : Apart d.words := by
  induction d with
  | ofTerm t ih => exact ih
  | add e t ihe iht => exact ihe.between iht (by decide)
  | sub e t ihe iht => exact ihe.between iht (by decide)
  | ofFactor f ih => exact ih
  | mul t f iht ihf => exact iht.between ihf (by decide)
  | numeral n => exact .singleton _
  | negative n =>
    have hclosed := Apart.between (.singleton n.word) .nil (k := .rightParen) (by decide)
    have hsigned := Apart.between .nil hclosed (k := .binary (.arith .sub)) (by decide)
    exact Apart.between .nil hsigned (k := .leftParen) (by decide)
  | paren e ih =>
    have hclosed := ih.between .nil (k := .rightParen) (by decide)
    exact Apart.between .nil hclosed (k := .leftParen) (by decide)

theorem written (d : Derivation a) : ∀ x ∈ d.words, Written x.1 x.2 :=
  fun x hx => (d.isWord_of_mem x hx).written

/-- The words can stand without gaps between them. -/
theorem unextendable (d : Derivation a) : d.words.IsChain fun x y => Unextendable x.2 y.2 :=
  d.apart.imp_of_mem_imp fun x y hx hy h =>
    (d.isWord_of_mem x hx).unextendable (d.isWord_of_mem y hy) h

end Derivation

end Arithmetic

/-! ## Expressions that denote integers -/

/-- An expression yields an integer modulo `2 ^ 32` in every environment, and does nothing else.
With the standard operators it is of the type of words, and declares nothing. -/
structure Denotes (e : Expr) (z : Int) : Prop where
  eval : ∀ d env, e.eval d env = .yield env (.int (Int32.ofInt z))
  checks : ∀ t : Table Decl, (∀ op : UnaryOp, t.unarySig op = op.sig) →
    (∀ op : BinaryOp, t.binarySig op = op.sig) → ∃ e', Checks t e .int e' t

namespace Denotes

variable {l : Location} {e a b : Expr} {x y z : Int}

theorem int : Denotes (.int l (Int32.ofInt z)) z where
  eval _ _ := rfl
  checks t _ _ := ⟨_, .int t l _⟩

theorem negative (h : Denotes e z) : Denotes (.unary l .unknown .minus e) (-z) where
  eval d env := by
    simp only [Expr.eval, h.eval, Run.yield_andThen, UnaryOp.apply, Value.negate, Int32.ofInt_neg]
  checks t hunary hbinary := by
    obtain ⟨e', he⟩ := h.checks t hunary hbinary
    have hsig : t.unarySig .minus = ⟨.int, .int⟩ := hunary .minus
    have hchecks : Checks t (.unary l .unknown .minus e) _ _ t := .unary he (by rw [hsig])
    rw [hsig] at hchecks
    exact ⟨_, hchecks⟩

theorem binary_checks {op : ArithOp} (ha : Denotes a x) (hb : Denotes b y) (t : Table Decl)
    (hunary : ∀ op : UnaryOp, t.unarySig op = op.sig)
    (hbinary : ∀ op : BinaryOp, t.binarySig op = op.sig) :
    ∃ e', Checks t (.binary l .unknown (.arith op) a b) .int e' t := by
  obtain ⟨a', hca⟩ := ha.checks t hunary hbinary
  obtain ⟨b', hcb⟩ := hb.checks t hunary hbinary
  have hsig : t.binarySig (.arith op) = ⟨.int, .int, .int⟩ := hbinary (.arith op)
  have hchecks : Checks t (.binary l .unknown (.arith op) a b) _ _ t :=
    .binary hca hcb (by rw [hsig]; exact ⟨rfl, rfl⟩)
  rw [hsig] at hchecks
  exact ⟨_, hchecks⟩

theorem binary {op : ArithOp} (ha : Denotes a x) (hb : Denotes b y)
    (hz : op.apply (.int (Int32.ofInt x)) (.int (Int32.ofInt y)) = .ok (.int (Int32.ofInt z))) :
    Denotes (.binary l .unknown (.arith op) a b) z where
  eval d env := by
    simp only [Expr.eval, ha.eval, hb.eval, Run.yield_andThen, BinaryOp.apply, hz]
    rfl
  checks := ha.binary_checks hb

end Denotes

/-! ## Phrases -/

namespace Arithmetic

/-- A numeral is read as the word that it denotes. -/
theorem Numeral.atom?_eq (n : Numeral) :
    (tokenOfWord n.word).atom? = some (.int .nowhere (Int32.ofInt n.value)) := by
  have hword : Literal.word? (String.ofList n.digits) = some (Int32.ofInt n.value) := by
    obtain ⟨c, cs, hn, hc, hcs⟩ := n.exists_cons
    have hsmall := n.small
    rw [Literal.word?, String.toList_ofList, Numeral.value, hn, Literal.integer?_digits hc hcs]
    rw [hn] at hsmall
    dsimp only
    rw [if_pos]
    · rfl
    · rw [Int32.toInt_minValue, Int32.toInt_maxValue, Int.ofNat_eq_natCast]
      omega
  show (Literal.word? (String.ofList n.digits)).map (Expr.int .nowhere) = _
  rw [hword]
  rfl

/-- A phrase over given words that denotes an integer. The operators on its left spine have at least
the power `left`, and those that are open at its end have at least the threshold `right`. -/
structure Spells (p : Phrase) (left right : Int) (ws : List (Kind × List Char)) (z : Int) :
    Prop where
  tokens : p.yield = ws.map tokenOfWord
  ordered : p.WellPrecedenced .standard
  leftPowers : ∀ k ∈ p.leftPowers .standard, left ≤ k
  rightReach : ∀ k ∈ p.rightReach .standard, right ≤ k
  denotes : Denotes p.expr z

namespace Spells

variable {p l r : Phrase} {left right left' right' : Int} {ws ws' : List (Kind × List Char)}
  {x y z : Int}

theorem mono (h : Spells p left right ws z) (hleft : left' ≤ left) (hright : right' ≤ right) :
    Spells p left' right' ws z :=
  { h with
    leftPowers := fun k hk => Int.le_trans hleft (h.leftPowers k hk)
    rightReach := fun k hk => Int.le_trans hright (h.rightReach k hk) }

/-- An operator between two phrases. -/
theorem infixed {op : ArithOp} (hl : Spells l left right ws x) (hr : Spells r left' right' ws' y)
    (hpower : Precedence.standard.power (.binary (.arith op)) ≤ right)
    (hreach : Precedence.standard.reach (.arith op) < left')
    (hleft : left ≤ Precedence.standard.power (.binary (.arith op)))
    (hright : right' ≤ Precedence.standard.reach (.arith op))
    (hz : op.apply (.int (Int32.ofInt x)) (.int (Int32.ofInt y)) = .ok (.int (Int32.ofInt z))) :
    ∃ p, Spells p left right' (ws ++ symbolWord (.binary (.arith op)) :: ws') z := by
  refine ⟨.infixed (tokenOfWord (symbolWord (.binary (.arith op)))) (.arith op) l r rfl, ?_, ?_, ?_,
    ?_, ?_⟩
  · show l.yield ++ _ :: r.yield = _
    rw [hl.tokens, hr.tokens, List.map_append, List.map_cons]
  · exact ⟨hl.ordered, hr.ordered, fun k hk => Int.le_trans hpower (hl.rightReach k hk),
      fun k hk => Int.lt_of_lt_of_le hreach (hr.leftPowers k hk)⟩
  · intro k hk
    rcases List.mem_cons.1 hk with rfl | hk
    · exact hleft
    · exact hl.leftPowers k hk
  · intro k hk
    rcases List.mem_cons.1 hk with rfl | hk
    · exact hright
    · exact hr.rightReach k hk
  · exact hl.denotes.binary hr.denotes hz

/-- A phrase in parentheses. -/
theorem paren (h : Spells p left right ws z) (left' right' : Int) :
    ∃ q, Spells q left' right'
      (symbolWord .leftParen :: (ws ++ [symbolWord .rightParen])) z := by
  refine ⟨.paren (tokenOfWord (symbolWord .leftParen)) p (tokenOfWord (symbolWord .rightParen))
    rfl rfl, ?_, h.ordered, ?_, ?_, h.denotes⟩
  · show _ :: (p.yield ++ [_]) = _
    rw [h.tokens, List.map_cons, List.map_append, List.map_singleton]
  · intro k hk
    cases hk
  · intro k hk
    cases hk

/-- A numeral. -/
theorem numeral (n : Numeral) (left right : Int) : ∃ p, Spells p left right [n.word] n.value := by
  refine ⟨.atom (tokenOfWord n.word) _ n.atom?_eq, rfl, trivial, ?_, ?_, .int⟩
  · intro k hk
    cases hk
  · intro k hk
    cases hk

/-- A numeral with a sign. -/
theorem negative (n : Numeral) (left : Int) :
    ∃ p, Spells p left (-1) [symbolWord (.binary (.arith .sub)), n.word] (-n.value) := by
  obtain ⟨p, hp⟩ := numeral n 0 (-1)
  refine ⟨.prefixed (tokenOfWord (symbolWord (.binary (.arith .sub)))) (.unary .minus) p rfl, ?_,
    ?_, ?_, ?_, hp.denotes.negative⟩
  · show _ :: p.yield = _
    rw [hp.tokens]
    rfl
  · exact ⟨hp.ordered, fun k hk => hp.leftPowers k hk⟩
  · intro k hk
    cases hk
  · intro k hk
    rcases List.mem_cons.1 hk with rfl | hk
    · exact Int.le_refl _
    · exact hp.rightReach k hk

end Spells

namespace Derivation

/-- The phrases of a derivation. A term may be followed by further factors, which it takes on its
right. -/
def Readable : {a : Nonterminal} → Derivation a → Prop
  | .sum, e => ∃ p, Spells p 100 100 e.words e.value
  | .term, t => (∃ p, Spells p 110 109 t.words t.value) ∧
    ∀ r ws z, Spells r 110 109 ws z →
      ∃ p, Spells p 110 109 (t.words ++ symbolWord (.binary (.arith .mul)) :: ws) (t.value * z)
  | .factor, f => ∃ p, Spells p 110 110 f.words f.value

theorem readable {a : Nonterminal} (d : Derivation a) : d.Readable := by
  have hmul {x y : Int} : ArithOp.mul.apply (.int (Int32.ofInt x)) (.int (Int32.ofInt y)) =
      .ok (.int (Int32.ofInt (x * y))) := by
    rw [Int32.ofInt_mul]
    rfl
  induction d with
  | ofTerm t ih =>
    obtain ⟨p, hp⟩ := ih.1
    exact ⟨p, hp.mono (by decide) (by decide)⟩
  | add e t ihe iht =>
    obtain ⟨p, hp⟩ := ihe
    obtain ⟨q, hq⟩ := iht.1
    refine hp.infixed (hq.mono (Int.le_refl _) (by decide)) (by decide) (by decide) (by decide)
      (by decide) ?_
    rw [value, Int32.ofInt_add]
    rfl
  | sub e t ihe iht =>
    obtain ⟨p, hp⟩ := ihe
    obtain ⟨q, hq⟩ := iht.1
    refine hp.infixed (hq.mono (Int.le_refl _) (by decide)) (by decide) (by decide) (by decide)
      (by decide) ?_
    rw [value, Int32.ofInt_sub]
    rfl
  | ofFactor f ih =>
    obtain ⟨p, hp⟩ := ih
    refine ⟨⟨p, hp.mono (Int.le_refl _) (by decide)⟩, fun r ws z hr => ?_⟩
    exact hp.infixed hr (by decide) (by decide) (by decide) (by decide) hmul
  | mul t f iht ihf =>
    obtain ⟨p, hp⟩ := ihf
    constructor
    · exact iht.2 p f.words f.value (hp.mono (Int.le_refl _) (by decide))
    · intro r ws z hr
      obtain ⟨q, hq⟩ := hp.infixed hr (by decide) (by decide) (by decide) (by decide) hmul
      have hall := iht.2 q _ _ hq
      rw [words, value, List.append_assoc, Int.mul_assoc]
      exact hall
  | numeral n => exact Spells.numeral n 110 110
  | negative n =>
    obtain ⟨p, hp⟩ := Spells.negative n 110
    exact hp.paren 110 110
  | paren e ih =>
    obtain ⟨p, hp⟩ := ih
    exact hp.paren 110 110

/-- **What is parsed from the words** denotes the integer of the derivation. -/
theorem parse_words (e : Derivation .sum) :
    ∃ x, parse (e.words.map tokenOfWord ++ [.eofAt .nowhere]) = .ok [x] ∧ Denotes x e.value := by
  obtain ⟨p, hp⟩ := e.readable
  have htokens : e.words.map tokenOfWord ++ [.eofAt .nowhere] =
      [p].flatMap Phrase.yield ++ [.eofAt .nowhere] := by
    rw [List.flatMap_singleton, hp.tokens]
  exact ⟨p.expr, parse_eq_ok_iff.2 ⟨[p], _, .single hp.ordered, htokens, rfl, rfl⟩, hp.denotes⟩

end Derivation

end Arithmetic

end Reckon

import Reckon.Proofs.Grammar.Tree
import Reckon.Proofs.Typing.Annotation
import Reckon.Proofs.Unlocated

/-!
# Writing and reading back

A printable program that is written and read again is the same program, apart from the locations of
its nodes and from the types that were attached to them.

The two halves of the argument meet in phrases. What is written for an expression scans as the
tokens of a phrase that is an atom or stands between parentheses (`Writes`), and such phrases in a
row are a sentence, so the parser finds them.

* `exists_writes`: every printable expression is written as such a phrase.
* `exists_sentence_of_printable`: every printable program is written as a sentence.
* `Program.printable_and_read_back`: what is read is printable, and what is printable is read back.
-/

namespace Reckon

open Token (Kind)

/-! ## Phrases that stand by themselves -/

/-- Atoms and phrases between parentheses. -/
def Phrase.Enclosed : Phrase → Prop
  | atom _ _ _ | paren _ _ _ _ _ => True
  | _ => False

namespace Phrase.Enclosed

variable {p : Phrase} {c : Precedence}

theorem leftPowers_eq (h : p.Enclosed) : p.leftPowers c = [] := by
  cases p with
  | infixed => exact h.elim
  | _ => rfl

theorem rightReach_eq (h : p.Enclosed) : p.rightReach c = [] := by
  cases p with
  | atom | paren => rfl
  | _ => exact h.elim

/-- What stands by itself does not extend what stands in front of it. -/
theorem power_head (h : p.Enclosed) : Precedence.standard.power (headKind p.yield) = -1 := by
  cases p with
  | atom t e ht =>
    show Precedence.standard.power t.kind = _
    rcases Token.atom?_eq_some ht with ⟨hk, -⟩ | ⟨b, hk, -⟩ | ⟨hk, -⟩ <;> rw [hk] <;> rfl
  | paren l p r hl hr =>
    show Precedence.standard.power l.kind = _
    rw [hl]
    rfl
  | _ => exact h.elim

end Phrase.Enclosed

/-- Phrases that stand by themselves may stand in a row. -/
theorem sentence_of_enclosed {ps : List Phrase}
    (h : ∀ p ∈ ps, p.WellPrecedenced .standard ∧ p.Enclosed) : Sentence .standard ps :=
  ⟨fun p hp => (h p hp).1, fun p hp => (h p (List.mem_of_mem_tail hp)).2.power_head⟩

theorem prefixed_wellPrecedenced {c : Precedence} {p : Phrase} {t : Token} {op : PrefixOp}
    {ht : t.kind.prefixOp? = some op} (hp : p.WellPrecedenced c) (h : p.Enclosed) :
    (Phrase.prefixed t op p ht).WellPrecedenced c := by
  refine ⟨hp, fun k hk => ?_⟩
  rw [h.leftPowers_eq] at hk
  cases hk

theorem infixed_wellPrecedenced {c : Precedence} {p q : Phrase} {t : Token} {op : BinaryOp}
    {ht : t.kind = .binary op} (hp : p.WellPrecedenced c) (hq : q.WellPrecedenced c)
    (h : p.Enclosed) (h' : q.Enclosed) : (Phrase.infixed t op p q ht).WellPrecedenced c := by
  refine ⟨hp, hq, fun k hk => ?_, fun k hk => ?_⟩
  · rw [h.rightReach_eq] at hk
    cases hk
  · rw [h'.leftPowers_eq] at hk
    cases hk

/-! ## Lexemes in a written text -/

/-- The characters that stand behind an expression in a written text. -/
def delimiters : List Char := [' ', ')', '\n']

/-- The end of a text, or a text that a delimiter begins. -/
def Delimited (rest : List Char) : Prop := ∀ c ∈ rest.head?, c ∈ delimiters

private theorem delimiters_apart {c : Char} (h : c ∈ delimiters) :
    ¬ c.isDigit = true ∧ ¬ isNamePart c = true := by
  simp only [delimiters, List.mem_cons, List.not_mem_nil, or_false] at h
  rcases h with rfl | rfl | rfl <;> decide

private theorem symbolParts_apart {c : Char} (h : c ∈ Kind.symbolParts) :
    c.isDigit = false ∧ isNameStart c = false := by
  simp only [Kind.symbolParts, List.mem_cons, List.not_mem_nil, or_false] at h
  rcases h with rfl | rfl | rfl | rfl | rfl <;> decide

theorem delimited_cons {c : Char} (h : c ∈ delimiters) (cs : List Char) : Delimited (c :: cs) := by
  intro d hd
  cases hd
  exact h

theorem notMem_symbolParts_of_isDigit {c : Char} (h : c.isDigit = true) : c ∉ Kind.symbolParts := by
  intro hc
  rw [(symbolParts_apart hc).1] at h
  cases h

theorem notMem_symbolParts_of_isNameStart {c : Char} (h : isNameStart c = true) :
    c ∉ Kind.symbolParts := by
  intro hc
  rw [(symbolParts_apart hc).2] at h
  cases h

theorem binary_mem_symbolic (op : BinaryOp) : Kind.binary op ∈ Kind.symbolic := by
  have hall : ∀ op ∈ BinaryOp.all, Kind.binary op ∈ Kind.symbolic := by decide
  exact hall op op.mem_all

/-- The symbol of a prefix operator. -/
theorem UnaryOp.exists_symbolic (op : UnaryOp) :
    ∃ k ∈ Kind.symbolic, k.symbol = op.spelling.toList ∧ k.prefixOp? = some (.unary op) := by
  cases op with
  | plus => exact ⟨.binary (.arith .add), by decide, rfl, rfl⟩
  | minus => exact ⟨.binary (.arith .sub), by decide, rfl, rfl⟩
  | bitNot => exact ⟨.bitNot, by decide, rfl, rfl⟩
  | logicNot => exact ⟨.logicNot, by decide, rfl, rfl⟩

/-- A word is a token of the kind of this word. -/
theorem Lexeme.ofWord {k : Kind} {c : Char} {cs rest : List Char}
    (hk : Kind.ofWord (String.ofList (c :: cs)) = k) (hc : isNameStart c = true)
    (hcs : ∀ d ∈ cs, isNamePart d = true) (hrest : ∀ d ∈ rest.head?, ¬ isNamePart d = true) :
    Lexeme k (c :: cs) rest :=
  hk ▸ .word hc hcs hrest

namespace ScansAs

variable {loc : Location} {w rest : List Char} {ts : List Token}

theorem nil : ScansAs loc [] [] rest := by
  show (⟨loc, rest⟩ : Cursor).scan .clean = ((⟨loc, rest⟩ : Cursor).scan .clean).map id
  cases (⟨loc, rest⟩ : Cursor).scan .clean <;> rfl

theorem symbol {k : Kind} (hk : k ∈ Kind.symbolic) (h : ∀ c ∈ rest.head?, c ∉ Kind.symbolParts) :
    ScansAs loc k.symbol [⟨k, String.ofList k.symbol, loc⟩] rest :=
  .lexeme (.symbol (Kind.ofSymbol?_append_of_notMem hk h))

/-- Parentheses around a part of a text. -/
theorem paren (h : ScansAs (loc.after '(') w ts (')' :: rest)) :
    ScansAs loc ('(' :: (w ++ [')']))
      (⟨.leftParen, String.ofList ['('], loc⟩ ::
        (ts ++ [⟨.rightParen, String.ofList [')'], (loc.after '(').afterAll w⟩])) rest := by
  have hopen : ScansAs loc ['('] [⟨.leftParen, String.ofList ['('], loc⟩] ((w ++ [')']) ++ rest) :=
    .lexeme (.symbol (Kind.ofSymbol?_paren (.inl rfl) _))
  have hclose : ScansAs ((loc.after '(').afterAll w) [')']
      [⟨.rightParen, String.ofList [')'], (loc.after '(').afterAll w⟩] rest :=
    .lexeme (.symbol (Kind.ofSymbol?_paren (.inr rfl) _))
  exact hopen.append (h.append hclose)

end ScansAs

/-! ## Expressions -/

/-- Written from `loc` on, in front of a delimiter, `e` is read as the phrase `p`. -/
structure Writes (e : Expr) (loc : Location) (p : Phrase) : Prop where
  ordered : p.WellPrecedenced .standard
  enclosed : p.Enclosed
  expr : p.expr.unlocated = e.untyped.unlocated
  head : ∀ c ∈ e.chars.head?, c ∉ Kind.symbolParts
  scans : ∀ rest, Delimited rest → ScansAs loc e.chars p.yield rest

section Writing

variable {e l r : Expr} {loc : Location}

/-- An expression that is one token. -/
theorem writes_atom {a : Expr} {k : Kind} {c : Char} {cs : List Char} (hchars : e.chars = c :: cs)
    (hc : c ∉ Kind.symbolParts) (hlex : ∀ rest, Delimited rest → Lexeme k (c :: cs) rest)
    (hatom : (⟨k, String.ofList (c :: cs), loc⟩ : Token).atom? = some a)
    (ha : a.unlocated = e.untyped.unlocated) : ∃ p, Writes e loc p := by
  refine ⟨.atom _ a hatom, trivial, trivial, ha, ?_, fun rest hrest => ?_⟩
  · rw [hchars]
    rintro d ⟨⟩
    exact hc
  · rw [hchars]
    exact .lexeme (hlex rest hrest)

/-- An expression between parentheses. -/
theorem writes_paren {q : Phrase} {w : List Char} (hchars : e.chars = '(' :: (w ++ [')']))
    (hq : q.WellPrecedenced .standard) (hexpr : q.expr.unlocated = e.untyped.unlocated)
    (hscan : ∀ rest, ScansAs (loc.after '(') w q.yield (')' :: rest)) : ∃ p, Writes e loc p := by
  refine ⟨.paren ⟨.leftParen, String.ofList ['('], loc⟩ q
    ⟨.rightParen, String.ofList [')'], (loc.after '(').afterAll w⟩ rfl rfl, hq, trivial, hexpr, ?_,
    fun rest _ => ?_⟩
  · rw [hchars]
    rintro d ⟨⟩
    decide
  · rw [hchars]
    exact (hscan rest).paren

private theorem isBlank_space : Text.isBlank ' ' = true := by decide

/-- Two operands with an operator between them. -/
theorem Writes.scans_infixed {op : BinaryOp} {p q : Phrase} (hp : Writes l loc p)
    (hq : Writes r ((((loc.afterAll l.chars).after ' ').afterAll op.symbol).after ' ') q)
    {rest : List Char} (hrest : Delimited rest) :
    ScansAs loc (l.chars ++ ' ' :: (op.symbol ++ ' ' :: r.chars))
      (p.yield ++
        ⟨.binary op, String.ofList op.symbol, (loc.afterAll l.chars).after ' '⟩ :: q.yield)
      rest := by
  have hmid : ScansAs ((loc.afterAll l.chars).after ' ') op.symbol
      [⟨.binary op, String.ofList op.symbol, (loc.afterAll l.chars).after ' '⟩]
      ((' ' :: r.chars) ++ rest) :=
    .symbol (binary_mem_symbolic op) (by rintro d ⟨⟩; decide)
  refine (hp.scans _ (delimited_cons (by decide) _)).append ?_
  exact .blank isBlank_space (hmid.append (.blank isBlank_space (hq.scans rest hrest)))

/-- An operator between two operands. -/
theorem writes_infixed {op : BinaryOp}
    (hchars : e.chars = '(' :: (l.chars ++ ' ' :: (op.symbol ++ ' ' :: (r.chars ++ [')']))))
    (hexpr : ∀ (loc : Location) (a b : Expr), a.unlocated = l.untyped.unlocated →
      b.unlocated = r.untyped.unlocated → (op.node loc a b).unlocated = e.untyped.unlocated)
    (hl : ∀ loc, ∃ p, Writes l loc p) (hr : ∀ loc, ∃ p, Writes r loc p) : ∃ p, Writes e loc p := by
  obtain ⟨p, hp⟩ := hl (loc.after '(')
  -- the operator and the right operand each have a blank in front of them
  let at_op := ((loc.after '(').afterAll l.chars).after ' '
  obtain ⟨q, hq⟩ := hr ((at_op.afterAll op.symbol).after ' ')
  refine writes_paren (w := l.chars ++ ' ' :: (op.symbol ++ ' ' :: r.chars))
    (q := .infixed ⟨.binary op, String.ofList op.symbol, at_op⟩ op p q rfl) (by simp [hchars])
    (infixed_wellPrecedenced hp.ordered hq.ordered hp.enclosed hq.enclosed)
    (hexpr _ _ _ hp.expr hq.expr) fun rest => ?_
  exact hp.scans_infixed hq (delimited_cons (by decide) _)

/-- A prefix operator in front of its operand. -/
theorem writes_unary {ty : Ty} (op : UnaryOp) (hr : ∀ loc, ∃ p, Writes r loc p) {l : Location} :
    ∃ p, Writes (.unary l ty op r) loc p := by
  obtain ⟨k, hk, hsymbol, hop⟩ := op.exists_symbolic
  obtain ⟨p, hp⟩ := hr ((loc.after '(').afterAll k.symbol)
  refine writes_paren (w := k.symbol ++ r.chars)
    (q := .prefixed ⟨k, String.ofList k.symbol, loc.after '('⟩ (.unary op) p hop)
    (by simp [Expr.chars, hsymbol]) (prefixed_wellPrecedenced hp.ordered hp.enclosed) ?_
    fun rest => ?_
  · show Expr.unary _ _ _ _ = Expr.unary _ _ _ _
    rw [hp.expr]
  · have hright := hp.scans (')' :: rest) (delimited_cons (by decide) _)
    refine ScansAs.append (.symbol hk ?_) hright
    -- the operand begins with no character that would make the operator a longer symbol
    have hhead := hp.head
    cases hc : r.chars with
    | nil => rintro d ⟨⟩; decide
    | cons c cs =>
      rw [hc] at hhead
      rintro d ⟨⟩
      exact hhead c rfl

/-- `print` in front of its operand. -/
theorem writes_print (hr : ∀ loc, ∃ p, Writes r loc p) {l : Location} :
    ∃ p, Writes (.print l r) loc p := by
  obtain ⟨p, hp⟩ := hr (((loc.after '(').afterAll ['p', 'r', 'i', 'n', 't']).after ' ')
  refine writes_paren (w := ['p', 'r', 'i', 'n', 't'] ++ ' ' :: r.chars)
    (q := .prefixed ⟨.print, "print", loc.after '('⟩ .print p rfl) rfl
    (prefixed_wellPrecedenced hp.ordered hp.enclosed) ?_ fun rest => ?_
  · show Expr.print _ _ = Expr.print _ _
    rw [hp.expr]
  · have hright := hp.scans (')' :: rest) (delimited_cons (by decide) _)
    have hword : Lexeme .print ['p', 'r', 'i', 'n', 't'] ((' ' :: r.chars) ++ (')' :: rest)) :=
      .ofWord rfl (by decide) (List.all_eq_true.1 rfl) (by rintro d ⟨⟩; decide)
    exact (ScansAs.lexeme hword).append (.blank isBlank_space hright)

/-- A truth value. -/
theorem writes_bool {l : Location} (b : Bool) : ∃ p, Writes (.bool l b) loc p := by
  have hrest : ∀ rest, Delimited rest → ∀ d ∈ rest.head?, ¬ isNamePart d = true :=
    fun rest h d hd => (delimiters_apart (h d hd)).2
  cases b with
  | true =>
    exact writes_atom (k := .bool true) rfl (by decide)
      (fun rest h => .ofWord rfl (by decide) (List.all_eq_true.1 rfl) (hrest rest h)) rfl rfl
  | false =>
    exact writes_atom (k := .bool false) rfl (by decide)
      (fun rest h => .ofWord rfl (by decide) (List.all_eq_true.1 rfl) (hrest rest h)) rfl rfl

theorem writes_var {l : Location} {ty : Ty} {x : String} (h : IsName x) :
    ∃ p, Writes (.var l ty x) loc p := by
  obtain ⟨c, cs, hx, hc, hcs, hkey⟩ := h
  have hspell : String.ofList (c :: cs) = x := by rw [← hx, String.ofList_toList]
  have hkind := Kind.ofWord_eq_identifier_iff.2 hkey
  refine writes_atom (a := .var loc .unknown x) (k := .identifier) hx
    (notMem_symbolParts_of_isNameStart hc) (fun rest hrest => ?_) ?_ rfl
  · exact .ofWord (hspell ▸ hkind) hc hcs fun d hd => (delimiters_apart (hrest d hd)).2
  · rw [hspell]
    rfl

theorem writes_int {l : Location} {n : Int32} (h : 0 ≤ n.toInt) : ∃ p, Writes (.int l n) loc p := by
  have hchars : (Expr.int l n).chars = Nat.toDigits 10 n.toInt.natAbs := if_neg (by omega)
  have hdigits : ∀ d ∈ Nat.toDigits 10 n.toInt.natAbs, d.isDigit = true :=
    fun d hd => Nat.isDigit_of_mem_toDigits (by decide) (by decide) hd
  have hword := Literal.word?_toDigits h
  cases hc : Nat.toDigits 10 n.toInt.natAbs with
  | nil => exact absurd hc Nat.toDigits_ne_nil
  | cons c cs =>
    rw [hc] at hchars hdigits hword
    have hdc := hdigits c List.mem_cons_self
    refine writes_atom (a := .int loc n) (k := .integer) hchars (notMem_symbolParts_of_isDigit hdc)
      (fun rest hrest => ?_) ?_ rfl
    · exact .number hdc (fun d hd => hdigits d (List.mem_cons_of_mem _ hd))
        fun d hd => (delimiters_apart (hrest d hd)).1
    · show (Literal.word? _).map _ = _
      rw [hword]
      rfl

/-- **Expressions.** Every printable expression is written as a phrase that stands by itself. -/
theorem exists_writes (h : e.Printable) (loc : Location) : ∃ p, Writes e loc p := by
  induction e generalizing loc with
  | int l n => exact writes_int h
  | bool l b => exact writes_bool b
  | var l ty x => exact writes_var h
  | unary l ty op e ih => exact writes_unary op (ih h)
  | binary l ty op a b iha ihb =>
    obtain ⟨hop, ha, hb⟩ := h
    refine writes_infixed rfl (fun loc a' b' ha' hb' => ?_) (iha ha) (ihb hb)
    simp [BinaryOp.node, hop, Expr.unlocated, Expr.untyped, ha', hb']
  | assign l ty op a b iha ihb =>
    obtain ⟨hop, ha, hb⟩ := h
    refine writes_infixed rfl (fun loc a' b' ha' hb' => ?_) (iha ha) (ihb hb)
    simp [BinaryOp.node, hop, Expr.unlocated, Expr.untyped, ha', hb']
  | print l e ih => exact writes_print (ih h)

end Writing

/-! ## Programs -/

/-- **Programs.** Every printable program is written as a sentence. -/
theorem exists_sentence_of_printable {prog : Program} (h : ∀ e ∈ prog, e.Printable)
    (loc : Location) :
    ∃ ps, Sentence .standard ps ∧
      (ps.map Phrase.expr).map Expr.unlocated = prog.map (fun e => e.untyped.unlocated) ∧
      ∀ rest, ScansAs loc (Program.chars prog) (ps.flatMap Phrase.yield) rest := by
  suffices hrow : ∃ ps : List Phrase, (∀ p ∈ ps, p.WellPrecedenced .standard ∧ p.Enclosed) ∧
      (ps.map Phrase.expr).map Expr.unlocated = prog.map (fun e => e.untyped.unlocated) ∧
      ∀ rest, ScansAs loc (Program.chars prog) (ps.flatMap Phrase.yield) rest by
    obtain ⟨ps, hps, hrow⟩ := hrow
    exact ⟨ps, sentence_of_enclosed hps, hrow⟩
  induction prog generalizing loc with
  | nil => exact ⟨[], by simp, rfl, fun rest => .nil⟩
  | cons e prog ih =>
    obtain ⟨p, hp⟩ := exists_writes (h e List.mem_cons_self) loc
    obtain ⟨ps, hps, hexpr, hscan⟩ :=
      ih (fun e he => h e (List.mem_cons_of_mem _ he)) (loc.afterAll (e.chars ++ ['\n']))
    refine ⟨p :: ps, ?_, ?_, fun rest => ?_⟩
    · intro q hq
      rcases List.mem_cons.1 hq with rfl | hq
      · exact ⟨hp.ordered, hp.enclosed⟩
      · exact hps q hq
    · simp only [List.map_cons, hp.expr, hexpr]
    · -- the line feed behind an expression is a delimiter and a gap
      have hline : ScansAs loc (e.chars ++ ['\n']) (p.yield ++ []) (Program.chars prog ++ rest) :=
        (hp.scans _ (delimited_cons (by decide) _)).append (.blank (by decide) .nil)
      rw [List.append_nil] at hline
      exact hline.append (hscan rest)

/-- **Writing and reading back.** Every program that is read from a source is printable, and every
printable program is read back from what is written for it, up to the locations of its nodes and
without the types that were attached to them. -/
theorem Program.printable_and_read_back :
    (∀ (src : Source) (prog : Program), src.program = .ok prog → ∀ e ∈ prog, e.Printable) ∧
    ∀ (name : String) (prog : Program), (∀ e ∈ prog, e.Printable) →
      ∃ prog', (Source.ofString name prog.text).program = .ok prog' ∧
        prog'.map Expr.unlocated = prog.map fun e => e.untyped.unlocated := by
  refine ⟨fun src prog h => Source.printable_of_program h, fun name prog h => ?_⟩
  obtain ⟨ps, hps, hexpr, hscans⟩ := exists_sentence_of_printable h (.start name)
  have htokens : (Source.ofString name prog.text).scan =
      .ok (ps.flatMap Phrase.yield ++ [.eofAt ((Location.start name).afterAll prog.chars)]) := by
    have hscan := hscans []
    rw [ScansAs, scan_nil, List.append_nil] at hscan
    rw [Source.scan, Source.cursor, Source.ofString, Program.text, String.toList_ofList]
    exact hscan
  exact ⟨ps.map Phrase.expr,
    Source.program_eq_ok_iff.2 ⟨_, htokens, parse_eq_ok_iff.2 ⟨ps, _, hps, rfl, rfl, rfl⟩⟩, hexpr⟩

/-- `((3 = x_1) <<= (-(print 2147483647)))` is read back, also if it is checked. -/
theorem Program.read_back_shift_assign :
    ∃ prog', (Source.ofString "notes" (Program.text
        [.assign .nowhere .int (.arithAssign .shiftLeft)
          (.assign .nowhere .int .assign (.int .nowhere 3) (.var .nowhere .int "x_1"))
          (.unary .nowhere .int .minus (.print .nowhere (.int .nowhere 2147483647)))])).program =
        .ok prog' ∧
      prog'.map Expr.unlocated =
        [.assign .nowhere .unknown (.arithAssign .shiftLeft)
          (.assign .nowhere .unknown .assign (.int .nowhere 3) (.var .nowhere .unknown "x_1"))
          (.unary .nowhere .unknown .minus (.print .nowhere (.int .nowhere 2147483647)))] := by
  refine Program.printable_and_read_back.2 "notes" _ fun e he => ?_
  rw [List.mem_singleton.1 he]
  have hname : IsName "x_1" := ⟨'x', ['_', '1'], rfl, rfl, List.all_eq_true.1 rfl, by decide⟩
  have hthree : (0 : Int) ≤ (3 : Int32).toInt := by decide
  have hmax : (0 : Int) ≤ (2147483647 : Int32).toInt := by decide
  exact ⟨rfl, ⟨rfl, hthree, hname⟩, hmax⟩

end Reckon

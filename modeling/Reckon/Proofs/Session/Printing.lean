import Reckon.Proofs.Evaluation.Printing
import Reckon.Proofs.Grammar.Tree
import Reckon.Proofs.Session.Faults
import Reckon.Proofs.Typing.Rules

/-!
# Printing in sessions

A checked program assigns to variables only, so interpreting it prints a line for each `print`, in
post-order and without leaving out an operand. If it fails, the output ends before the node that
fails.

* `Checks.assignsVariables`, `ChecksAll.assignsVariables`: assignments that pass a check.
* `Session.output_in_post_order`: what is printed, and in which order.
-/

namespace Reckon

theorem Checks.assignsVariables {t t' : Table Decl} {e e' : Expr} {ty : Ty}
    (h : Checks t e ty e' t') : e'.AssignsVariables := by
  induction h with
  | int | bool | var | const => trivial
  | unary _ _ ih => exact ih
  | binary _ _ _ iha ihb => exact ⟨iha, ihb⟩
  | declare _ _ ih => exact ih
  | reassign _ _ ih => exact ih
  | compound _ _ _ _ ih => exact ih
  | print _ ih => exact ih

theorem ChecksAll.assignsVariables {t t' : Table Decl} {p p' : Program} (h : ChecksAll t p p' t') :
    ∀ e ∈ p', e.AssignsVariables := by
  induction h with
  | nil => intro e he; cases he
  | cons he _ ih =>
    intro e' he'
    rcases List.mem_cons.1 he' with rfl | he'
    · exact he.assignsVariables
    · exact ih e' he'

namespace Session

/-- **Output of a checked program.** Let `q` be what a check leaves of a parsed program, and let it
be interpreted in any session. If it succeeds, it prints one line for each `print` node, in
post-order: the value that the operand has when evaluation comes to the node. If it fails, it fails
at a node, and it prints the lines of the `print` nodes before that node; those after it are not
completed. -/
theorem output_in_post_order {ts : List Token} {p q : Program} (hp : Reckon.parse ts = .ok p)
    {t : Table Decl} (hcheck : (Program.check t p).result = .ok ())
    (hq : q = (Program.check t p).tree) (s : Session) :
    (∀ v, (s.interpret q).result = .ok v →
      ∃ vs, Prints s.settings.dialect (Program.reached s.settings.dialect s.env q)
          (Program.nodes q) vs ∧
        (s.interpret q).output = String.join (vs.map fun v => v.text ++ "\n")) ∧
    (∀ f, (s.interpret q).result = .error f →
      ∃ n err env' vs, FailsAt s.settings.dialect (Program.reached s.settings.dialect s.env q)
          n err env' ∧ f = .eval err ∧
        PrintsUpTo s.settings.dialect (Program.reached s.settings.dialect s.env q)
          (Program.nodes q) n vs ∧
        (s.interpret q).output = String.join (vs.map fun v => v.text ++ "\n")) := by
  subst hq
  have hvars := (checksAll_of_ok hcheck).assignsVariables
  have hsorted := Program.wellSorted_of_untyped (Program.untyped_tree t p) (wellSorted_of_parse hp)
  constructor
  · intro v hv
    obtain ⟨w, hw⟩ : ∃ w, (Program.eval s.settings.dialect s.env (Program.check t p).tree).result =
        .ok w := ⟨v, mapError_eq_ok_iff.1 hv⟩
    exact ⟨_, Program.prints_of_ok hvars hw, rfl⟩
  · intro f hf
    obtain ⟨n, err, env', hn, rfl⟩ := exists_failsAt_of_interpret hsorted hf
    obtain ⟨env, hreached, hfails, hloc⟩ := hn
    exact ⟨n, err, env', _, ⟨env, hreached, hfails, hloc⟩, rfl,
      Program.printsUpTo_of_reached hsorted hvars hreached hfails .unit, rfl⟩

private def both (ty : Ty) : Expr :=
  .binary .nowhere ty (.logic .and) (.bool .nowhere false)
    (.binary .nowhere ty .equal (.print .nowhere (.int .nowhere 7))
      (.print .nowhere (.int .nowhere 2)))

private theorem parse_both :
    Reckon.parse [⟨.bool false, "false", .nowhere⟩, ⟨.binary (.logic .and), "&&", .nowhere⟩,
        ⟨.leftParen, "(", .nowhere⟩, ⟨.print, "print", .nowhere⟩, ⟨.integer, "7", .nowhere⟩,
        ⟨.rightParen, ")", .nowhere⟩, ⟨.binary .equal, "==", .nowhere⟩,
        ⟨.print, "print", .nowhere⟩, ⟨.integer, "2", .nowhere⟩, .eofAt .nowhere] =
      .ok [both .unknown] :=
  parse_eq_ok_iff.2 ⟨[
    .infixed ⟨.binary (.logic .and), "&&", .nowhere⟩ (.logic .and)
      (.atom ⟨.bool false, "false", .nowhere⟩ (.bool .nowhere false) rfl)
      (.infixed ⟨.binary .equal, "==", .nowhere⟩ .equal
        (.paren ⟨.leftParen, "(", .nowhere⟩
          (.prefixed ⟨.print, "print", .nowhere⟩ .print
            (.atom ⟨.integer, "7", .nowhere⟩ (.int .nowhere 7) rfl) rfl)
          ⟨.rightParen, ")", .nowhere⟩ rfl rfl)
        (.prefixed ⟨.print, "print", .nowhere⟩ .print
          (.atom ⟨.integer, "2", .nowhere⟩ (.int .nowhere 2) rfl) rfl) rfl) rfl],
    [.eofAt .nowhere],
    .single ⟨trivial, ⟨⟨trivial, by decide⟩, ⟨trivial, by decide⟩, by decide, by decide⟩, by decide,
      by decide⟩,
    rfl, rfl, rfl⟩

private theorem check_both :
    Program.check Decl.standard [both .unknown] = ⟨.ok (), [both .bool], Decl.standard⟩ := by
  have hand : Decl.standard.binarySig (.logic .and) = ⟨.bool, .bool, .bool⟩ := by decide +kernel
  have hequal : Decl.standard.binarySig .equal = ⟨.any, .any, .bool⟩ := by decide +kernel
  simp [both, Program.check, Expr.check, hand, hequal, BinarySig.apply]

/-- `false && (print 7) == print 2` prints twice, although its first operand is false, and the left
operand of `==` comes first. -/
theorem output_of_both : ((start .default).interpret [both .bool]).output = "7\n2\n" := by
  have hok : (Program.check Decl.standard [both .unknown]).result = .ok () := by rw [check_both]
  obtain ⟨vs, hprints, houtput⟩ := (output_in_post_order parse_both hok (by rw [check_both])
    (start .default)).1 (.bool false) rfl
  -- each of the two `print` nodes shows the value of its operand
  cases hprints with
  | cons hseven htail =>
    cases htail with
    | cons htwo hnil =>
      cases hnil
      obtain ⟨l, operand, env, hexpr, hreached, hvalue⟩ := hseven
      cases hexpr
      cases hreached
      cases hvalue
      obtain ⟨l, operand, env, hexpr, hreached, hvalue⟩ := htwo
      cases hexpr
      cases hreached
      cases hvalue
      exact houtput.trans (by decide)

end Session

end Reckon

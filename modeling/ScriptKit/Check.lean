import ScriptKit.Diagnostic
import ScriptKit.Eval
import ScriptKit.Interpolate
import ScriptKit.Tree.Walk

/-!
# Checking programs

`Program.check` looks at a program without running it and reports what a run would reject once it got
there: a missing `Main`, conditions that are no comparisons, signs in front of anything but a number,
wrong numbers of arguments, and names that are declared twice or not at all.

Undeclared names are reported only where all callers are known, that is in the globals and in `Main`
itself: any other function sees the variables of whoever calls it.
-/

namespace ScriptKit

namespace Check

/-- The names visible to a statement, the innermost block first. -/
abbrev Names := List (List Text)

/-- Whether a name is visible. -/
def Names.has (names : Names) (name : Text) : Bool := names.any fun block => block.contains name

/-- Add a name to the innermost block. -/
def Names.add (names : Names) (name : Text) : Names :=
  match names with
  | [] => [[name]]
  | block :: outer => (name :: block) :: outer

/-- The names of the globals alone. -/
def Names.globals (names : Names) : Names := names.getLast?.toList

/-- What is known about a program while its parts are checked. -/
structure Known where
  /-- The functions of the program by their numbers. -/
  functions : List Function
  /-- Whether an undeclared name is reported. -/
  strict : Bool

/-- The function a call calls. -/
def Known.target? (known : Known) : Callee → Option Function
  | .builtin => none
  | .function number => known.functions[number]?

/-- The report of what a run would fail with. -/
def report (fault : Run.Fault) (span : Span) : Diagnostic := Run.Failure.diagnostic ⟨fault, span⟩

/-- Declare a name, unless it is visible already. -/
def declare (names : Names) (name : Text) (span : Span) : List Diagnostic × Names :=
  if names.has name then ([report (.scope ⟨.declare, name, .redeclared⟩) span], names)
  else ([], names.add name)

/-- Use a name. -/
def use (known : Known) (names : Names) (name : Text) (span : Span) : List Diagnostic :=
  if known.strict && !names.has name then [report (.scope ⟨.resolve, name, .notFound⟩) span] else []

/-- Declare parameters in order. -/
def declareParams (names : Names) : List Param → List Diagnostic × Names
  | [] => ([], names)
  | p :: params =>
    let (found, names) := declare names p.name p.span
    let (more, names) := declareParams names params
    (found ++ more, names)

/-! ## Expressions -/

/-- Check that a call of a function has as many arguments as it has parameters. -/
def arity (known : Known) (span : Span) (name : Text) (callee : Callee) (got : Nat) : List Diagnostic :=
  match known.target? callee with
  | none => []
  | some f => if got = f.params.length then [] else [report (.arity name f.params.length got) span]

/-- Check that a sign stands in front of a number literal. -/
def operand (span : Span) (op : Sign) : Node → List Diagnostic
  | .number .. => []
  | n => [report (.unaryOperand op.symbol n.kind) span]

mutual

/-- Check an expression. -/
def expr (known : Known) (names : Names) : Node → List Diagnostic
  | .str span t => (placeholders t).flatMap fun name => use known names name span
  | .use span name => use known names name span
  | .arith _ left _ right => expr known names left ++ expr known names right
  | .compare _ left _ right => expr known names left ++ expr known names right
  | .sign span op n => operand span op n
  | .call span name callee args =>
    exprs known names args ++ arity known span name callee args.length
  | _ => []

/-- Check several expressions. -/
def exprs (known : Known) (names : Names) : List Node → List Diagnostic
  | [] => []
  | n :: rest => expr known names n ++ exprs known names rest

end

/-- Check a condition. -/
def condition (known : Known) (names : Names) (statement : Text) (n : Node) : List Diagnostic :=
  (if n.isComparison then [] else [report (.condition statement n.kind) n.span]) ++ expr known names n

/-! ## Statements -/

mutual

/-- Check a statement. The answer holds the names visible after it. -/
def stmt (known : Known) (names : Names) : Node → List Diagnostic × Names
  | .declare span name _ => declare names name span
  | .declareAs span name _ value =>
    let (found, names') := declare names name span
    (expr known names value ++ found, names')
  | .assign span name value => (expr known names value ++ use known names name span, names)
  | .block _ body => ((stmts known ([] :: names) body).1, names)
  | .when _ cond _ yes => (condition known names "if" cond ++ (stmts known ([] :: names) yes).1, names)
  | .choose _ cond _ yes _ no =>
    (condition known names "if" cond ++ (stmts known ([] :: names) yes).1 ++
      (stmts known ([] :: names) no).1, names)
  | .whileLoop _ cond _ body =>
    let (found, names') := stmts known names body
    (condition known names "while" cond ++ found, names')
  | .forLoop _ init cond step _ body =>
    let (found, inner) := stmt known ([] :: names) init
    (found ++ condition known inner "for" cond ++ (stmts known ([] :: inner) body).1 ++
      (stmt known inner step).1, names)
  | .function _ _ params _ body =>
    let (found, inner) := declareParams ([] :: names.globals) params
    (found ++ (stmts { known with strict := false } inner body).1, names)
  | .skip .. => ([], names)
  | n => (expr known names n, names)

/-- Check statements one after the other. -/
def stmts (known : Known) (names : Names) : List Node → List Diagnostic × Names
  | [] => ([], names)
  | n :: rest =>
    let (found, names) := stmt known names n
    let (more, names) := stmts known names rest
    (found ++ more, names)

end

/-! ## Programs -/

/-- Check a function whose callers see at most the globals. -/
def function (known : Known) (globals : Names) (f : Function) : List Diagnostic :=
  let (found, inner) := declareParams ([] :: globals) f.params
  found ++ (stmts known inner f.body).1

/-- Check functions in order; the last one is checked strictly if it is `Main`. -/
def functions (known : Known) (globals : Names) : List Function → List Diagnostic
  | [] => []
  | [f] => function { known with strict := f.name == "Main" } globals f
  | f :: rest => function { known with strict := false } globals f ++ functions known globals rest

/-- Check that a program has something to run and starts with `Main`. -/
def entryPoint (p : Program) : List Diagnostic :=
  if p.globals.isEmpty && p.functions.isEmpty then [report .emptyProgram p.span]
  else
    match p.entry? with
    | none => []
    | some f => if f.name = ("Main" : Text) then [] else [report (.entryName f.name) f.span]

/-- Check that `Main` takes no arguments. -/
def entryArity (p : Program) : List Diagnostic :=
  match p.entry? with
  | none => []
  | some f =>
    if f.name = ("Main" : Text) ∧ f.params ≠ [] then
      [report (.arity "Main" f.params.length 0) f.span]
    else []

end Check

/-- What a run of a program would reject once it got there. -/
def Program.check (p : Program) : List Diagnostic :=
  let known : Check.Known := ⟨p.allFunctions, true⟩
  let (found, names) := Check.stmts known [[]] p.globals
  Check.entryPoint p ++ found ++ Check.functions known names p.functions ++ Check.entryArity p

end ScriptKit

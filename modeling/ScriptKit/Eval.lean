import ScriptKit.Builtin
import ScriptKit.Interpolate
import ScriptKit.Trace.Event
import ScriptKit.Tree.Walk

/-!
# Running programs

A run evaluates the global declarations in a fresh root frame and then calls the program's last function,
which must be `Main`. A run ends at its first failure, and what it has done until then stands.

A run is interrupted from outside: before each statement of a statement list and before each turn of a
loop it asks whether it may go on, and the machine counts how many times the answer is still yes. The
same count bounds the recursion. `evalWith` follows the structure of a node and hands the statements of
every list, which are reached only past such a question, to `next`; `eval` takes itself, one level
lower, for `next`. At level zero no question is answered with yes any more, so nothing is left to do.
-/

namespace ScriptKit

/-! ## Failures -/

namespace Run

/-- Why a run fails. -/
inductive Fault where
  | emptyProgram
  | entryName (found : Text)
  | scope (error : Scope.Error)
  | operand (symbol : Text) (value : Value)
  | divisionByZero
  | arithmeticOperator (symbol : Text)
  | comparisonOperator (symbol : Text)
  | unaryOperator (symbol : Text)
  | unaryOperand (symbol kind : Text)
  | noValue (kind : Text)
  | noReturn (function : Text)
  | unhandled (kind : Text)
  | condition (statement kind : Text)
  | arity (function : Text) (expected got : Nat)
  | unknownFunction (name : Text)
  | builtin (name : Text) (fault : Builtin.Fault)
  | canceled
  deriving DecidableEq, Repr, Inhabited

namespace Fault

/-- The code of a failure. -/
def code : Fault → Code
  | .emptyProgram | .entryName _ => .programStructure
  | .scope _ => .scope
  | .unknownFunction _ => .unknownFunction
  | .builtin _ fault =>
    match fault with
    | .arity _ | .argument _ => .type
    | .io _ => .io
    | .other _ => .builtin
    | .raised code _ _ _ => code
  | .canceled => .canceled
  | _ => .type

/-- The wording of a failure. -/
def message : Fault → Text
  | .emptyProgram => "program has no global declarations and no functions"
  | .entryName found => "the last function must be Main, found " ++ found
  | .scope error => error.message
  | .operand symbol value =>
    "operand of " ++ symbol ++ " must be an integer, got " ++ Value.typeName (some value) ++ " " ++
      value.text.quoted
  | .divisionByZero => "division by zero"
  | .arithmeticOperator symbol => "unsupported arithmetic operator " ++ symbol
  | .comparisonOperator symbol => "unsupported comparison operator " ++ symbol
  | .unaryOperator symbol => "unsupported unary operator " ++ symbol
  | .unaryOperand symbol kind => "unary " ++ symbol ++ " needs a number literal, got " ++ kind
  | .noValue kind => kind ++ " does not produce a value"
  | .noReturn function => function ++ " does not return a value"
  | .unhandled kind => "unhandled node kind " ++ kind
  | .condition statement kind => statement ++ " condition must be a comparison, got " ++ kind
  | .arity function expected got =>
    "function " ++ function ++ " expects " ++ Text.ofNat expected ++ " arguments, got " ++ Text.ofNat got
  | .unknownFunction name => "function " ++ name ++ " does not exist"
  | .builtin name fault =>
    match fault with
    | .raised _ message _ _ => message
    | fault => name ++ ": " ++ fault.message
  | .canceled => "execution canceled"

end Fault

/-- A failure and the place it concerns. -/
structure Failure where
  fault : Fault
  span : Span
  deriving DecidableEq, Repr, Inhabited

/-- The diagnostic of a failure. -/
def Failure.diagnostic (f : Failure) : Diagnostic where
  code := f.fault.code
  message := f.fault.message
  span := some f.span

/-! ## The machine -/

/-- The state of a run. -/
structure Machine where
  /-- The frames visible to the statement being run, innermost first. -/
  chain : Chain
  world : World
  /-- What has happened, the latest first. -/
  events : List Trace.Event
  /-- How many times the run may still go on when it asks. -/
  budget : Nat

end Run

/-- A step of a run: it changes the machine and gives a result or a failure. -/
abbrev Run := ExceptT Run.Failure (StateM Run.Machine)

namespace Run

/-- Fail at a span. -/
def fail {α : Type} (fault : Fault) (span : Span) : Run α := throw ⟨fault, span⟩

/-- Report an event. -/
def emit (span : Span) (what : Trace.Happening) : Run Unit :=
  modify fun m => { m with events := ⟨span, what⟩ :: m.events }

/-- Ask whether the run may go on. -/
def check (span : Span) : Run Unit := do
  match (← get).budget with
  | 0 => fail .canceled span
  | n + 1 => modify fun m => { m with budget := n }

/-- Do something in a frame of its own, which is gone afterwards. -/
def inFrame {α : Type} (body : Run α) : Run α := fun m =>
  let (result, m) := body { m with chain := {} :: m.chain }
  (result, { m with chain := m.chain.tail })

/-! ## Variables -/

/-- Turn the failure of an action on names into a failure of the run. -/
def liftScope {α : Type} (span : Span) : Except Scope.Error α → Run α
  | .ok a => return a
  | .error e => fail (.scope e) span

/-- Declare a variable and report it. -/
def declare (span : Span) (name : Text) (type : VarType) (value : Option Value) : Run Unit := do
  let chain ← liftScope span ((← get).chain.declare name type value)
  modify fun m => { m with chain := chain }
  emit span (.declared name type chain.depth)

/-- Assign to a variable. -/
def assign (span : Span) (name : Text) (value : Value) : Run Unit := do
  let chain ← liftScope span ((← get).chain.assign name (some value))
  modify fun m => { m with chain := chain }

/-- Read a variable. -/
def resolve (span : Span) (name : Text) : Run (Option Value) := do
  liftScope span ((← get).chain.resolve name)

/-! ## Operators -/

/-- The failure of a node that was asked for a value and has none. -/
def noValue : Node → Fault
  | .call _ name _ _ => .noReturn name
  | n => .noValue n.kind

/-- The value a node has given; it must have given one. -/
def needValue (n : Node) : Option Value → Run Value
  | some v => return v
  | none => fail (noValue n) n.span

/-- The integer an operand counts as. -/
def needInt (n : Node) (symbol : Text) (v : Value) : Run Int32 :=
  match v.toInt? with
  | some i => return i
  | none => fail (.operand symbol v) n.span

/-- The result of an arithmetic operation. -/
def applyArith (span : Span) (op : Arith) (l r : Int32) : Run (Option Value) :=
  match op with
  | .add => return some (.int (l + r))
  | .sub => return some (.int (l - r))
  | .mul => return some (.int (l * r))
  | .div => if r = 0 then fail .divisionByZero span else return some (.int (l / r))
  | .other symbol => fail (.arithmeticOperator symbol) span

/-- The result of a comparison. -/
def applyRelation (span : Span) (op : Relation) (l r : Int32) : Run Bool :=
  match op with
  | .eq => return l == r
  | .ne => return l != r
  | .gt => return decide (r < l)
  | .lt => return decide (l < r)
  | .ge => return decide (r ≤ l)
  | .le => return decide (l ≤ r)
  | .other symbol => fail (.comparisonOperator symbol) span

/-- The value of a signed operand, which must be a number literal. -/
def applySign (span : Span) (op : Sign) (operand : Node) : Run (Option Value) :=
  match operand, op with
  | .number _ n, .minus => return some (.int (-n))
  | .number _ n, .plus => return some (.int n)
  | .number _ _, .other symbol => fail (.unaryOperator symbol) span
  | n, op => fail (.unaryOperand op.symbol n.kind) span

/-! ## Statement lists, loops and calls -/

/-- Run statements one after the other, asking before each whether the run may go on. -/
def statements (next : Node → Run (Option Value)) : List Node → Run Unit
  | [] => return ()
  | s :: rest => do
    check s.span
    discard (next s)
    statements next rest

/-- Repeat a turn as long as it answers yes, at most `n` times more after the first. -/
def turns (turn : Run Bool) : Nat → Run Unit
  | 0 => discard turn
  | n + 1 => do
    if ← turn then turns turn n

/-- What a run works with. -/
structure Env where
  builtins : Registry
  /-- The functions of the program by their numbers. -/
  functions : List Function

/-- The function a call calls. -/
def Env.target? (env : Env) : Callee → Option Function
  | .builtin => none
  | .function number => env.functions[number]?

/-- Call a builtin by name. A failure that names no place concerns the call. -/
def callBuiltin (env : Env) (span : Span) (name : Text) (args : List Value) : Run (Option Value) := do
  match env.builtins.get? name with
  | none => fail (.unknownFunction name) span
  | some b =>
    emit span (.builtinCall name args.length)
    let (result, world) := b.run args (← get).world
    modify fun m => { m with world := world }
    match result with
    | .ok v => return v
    | .error (.raised code message place context) =>
      fail (.builtin name (.raised code message place context)) (place.getD span)
    | .error fault => fail (.builtin name fault) span

/-- Declare parameters with the values of the arguments. -/
def bindParams : List Param → List Value → Run Unit
  | p :: params, v :: args => do
    declare p.span p.name p.type (some v)
    bindParams params args
  | _, _ => return ()

/-- The frame of a call: the parameters are declared where only the globals are visible, so they clash
with nothing else. -/
def callFrame (f : Function) (args : List Value) : Run Frame := fun m =>
  let (result, m') := bindParams f.params args { m with chain := {} :: m.chain.getLast?.toList }
  let restored := { m' with chain := m.chain }
  match result with
  | .ok () => (.ok (m'.chain.head?.getD {}), restored)
  | .error e => (.error e, restored)

/-- Run the body of a function in its frame, on top of the frames of the caller. -/
def callBody (next : Node → Run (Option Value)) (f : Function) (frame : Frame) : Run Unit := fun m =>
  let (result, m) := statements next f.body { m with chain := frame :: m.chain }
  (result, { m with chain := m.chain.tail })

/-- Whether a result is no failure. -/
def isOk {α : Type} : Except Failure α → Bool
  | .ok _ => true
  | .error _ => false

/-- Report the end of a call once its body has ended, whichever way. -/
def reportEnd (span : Span) (name : Text) (body : Run Unit) : Run Unit := fun m =>
  let (result, m) := body m
  (result, { m with events := ⟨span, .callEnd name (isOk result)⟩ :: m.events })

/-- Call a function. The number of arguments is checked first. -/
def callFunction (next : Node → Run (Option Value)) (f : Function) (args : List Value) (span : Span) :
    Run Unit := do
  if args.length = f.params.length then
    emit span (.callStart f.name)
    -- where a parameter cannot be declared the call ends here, and no end is reported
    let frame ← callFrame f args
    reportEnd span f.name (callBody next f frame)
  else fail (.arity f.name f.params.length args.length) span

/-! ## Evaluation -/

mutual

/-- Evaluate a node. `bound` is at least the machine's budget, and `next` runs the statements that are
reached past a question. -/
def evalWith (env : Env) (bound : Nat) (next : Node → Run (Option Value)) : Node → Run (Option Value)
  | .number _ n => return some (.int n)
  | .bool _ b => return some (.bool b)
  | .str span t => do
    let filled ← liftScope span (interpolate (← get).chain t)
    return some (.str filled)
  | .use span name => resolve span name
  | .declare span name type => do
    declare span name type none
    return none
  | .declareAs span name type value => do
    let v ← needValue value (← evalWith env bound next value)
    declare span name type (some v)
    return none
  | .assign span name value => do
    let v ← needValue value (← evalWith env bound next value)
    assign span name v
    return none
  | .arith span left op right => do
    let l ← needInt left op.symbol (← needValue left (← evalWith env bound next left))
    let r ← needInt right op.symbol (← needValue right (← evalWith env bound next right))
    applyArith span op l r
  | .compare span left op right => do
    let l ← needInt left op.symbol (← needValue left (← evalWith env bound next left))
    let r ← needInt right op.symbol (← needValue right (← evalWith env bound next right))
    return some (.bool (← applyRelation span op l r))
  | .sign span op operand => applySign span op operand
  | .block _ body => do
    inFrame (statements next body)
    return none
  | .function .. => return none
  | .call span name callee args =>
    match env.target? callee with
    | some f => do
      -- the arguments are counted before any of them is evaluated
      if args.length = f.params.length then
        let values ← evalArgs env bound next args
        callFunction next f values span
        return none
      else fail (.arity f.name f.params.length args.length) span
    | none => do
      let values ← evalArgs env bound next args
      callBuiltin env span name values
  | .when _ cond _ yes => do
    if ← evalCondition env bound next "if" cond then inFrame (statements next yes)
    return none
  | .choose _ cond _ yes _ no => do
    if ← evalCondition env bound next "if" cond then inFrame (statements next yes)
    else inFrame (statements next no)
    return none
  | .whileLoop span cond _ body => do
    turns (do
      check span
      if ← evalCondition env bound next "while" cond then
        -- the body declares in the frame around the loop
        statements next body
        return true
      else return false) bound
    return none
  | .forLoop span init cond step _ body =>
    inFrame (do
      discard (evalWith env bound next init)
      turns (do
        check span
        if ← evalCondition env bound next "for" cond then
          inFrame (statements next body)
          discard (evalWith env bound next step)
          return true
        else return false) bound
      return none)
  | .skip .. => return none
  | n@(.program span _ _) => fail (.unhandled n.kind) span

/-- Evaluate a condition, which must be a comparison. -/
def evalCondition (env : Env) (bound : Nat) (next : Node → Run (Option Value)) (statement : Text) :
    Node → Run Bool
  | .compare span left op right => do
    let l ← needInt left op.symbol (← needValue left (← evalWith env bound next left))
    let r ← needInt right op.symbol (← needValue right (← evalWith env bound next right))
    applyRelation span op l r
  | n => fail (.condition statement n.kind) n.span

/-- Evaluate arguments from left to right. -/
def evalArgs (env : Env) (bound : Nat) (next : Node → Run (Option Value)) : List Node → Run (List Value)
  | [] => return []
  | n :: rest => do
    let v ← needValue n (← evalWith env bound next n)
    return v :: (← evalArgs env bound next rest)

end

/-- Evaluate a node with a machine whose budget is at most the level. -/
def eval (env : Env) : Nat → Node → Run (Option Value)
  | 0 => evalWith env 0 fun _ => return none
  | level + 1 => evalWith env (level + 1) (eval env level)

/-! ## Whole programs -/

/-- Evaluate global declarations in order. -/
def globals (next : Node → Run (Option Value)) : List Node → Run Unit
  | [] => return ()
  | g :: rest => do
    discard (next g)
    globals next rest

/-- Evaluate the globals of a program and call its `Main`. -/
def start (next : Node → Run (Option Value)) (p : Program) : Run Unit := do
  if p.globals.isEmpty && p.functions.isEmpty then fail .emptyProgram p.span
  globals next p.globals
  match p.entry? with
  | none => return ()
  | some f =>
    if f.name = ("Main" : Text) then callFunction next f [] f.span else fail (.entryName f.name) f.span

/-- How a run ended and what it left behind. -/
structure Outcome where
  failure : Option Failure
  globals : Frame
  world : World
  /-- What happened, in order. -/
  events : List Trace.Event

/-- The machine at the start of a run. -/
def Machine.start (world : World) (budget : Nat) : Machine := ⟨[.root], world, [], budget⟩

end Run

namespace Program

open Run

/-- The failure a result holds, if any. -/
def failure? {α : Type} : Except Failure α → Option Failure
  | .ok _ => none
  | .error f => some f

/-- Run a program in a world. `budget` is how many times the run may go on when it asks. -/
def run (p : Program) (builtins : Registry) (world : World) (budget : Nat) : Outcome :=
  let env : Env := ⟨builtins, p.allFunctions⟩
  let (result, m) := Run.start (eval env budget) p (.start world budget)
  { failure := failure? result
    globals := (m.chain.getLast?).getD .root
    world := m.world
    events := ⟨p.span, .runStart⟩ :: (⟨p.span, .runEnd (isOk result)⟩ :: m.events).reverse }

end Program

end ScriptKit

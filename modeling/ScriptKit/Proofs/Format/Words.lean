import ScriptKit.Proofs.Grammar.Complete
import ScriptKit.Proofs.Tree.Core

/-!
# The words of the canonical form

A word is a token without its place. `Node.exprWords` and `Node.stmtWords` list the words of the canonical
form of a node, with the parentheses and separators it has and without its layout. They stand between
the canonical text and its tree: the text is scanned into these words, and these words are read as the
tree again.
-/

namespace ScriptKit

/-- A token without its place. -/
abbrev Word := Token.Kind × Text

namespace Word

/-- The word of a kind that is spelled in one way only. -/
def of (k : Token.Kind) : Word := (k, k.spelling?.getD [])

/-- The kind of the first of some words; where there is none it is the end of the file. -/
def headKind (ws : List Word) : Token.Kind := (ws.head?.map Prod.fst).getD .endOfFile

@[simp] theorem headKind_nil : headKind [] = .endOfFile := rfl

@[simp] theorem headKind_cons (w : Word) (ws : List Word) : headKind (w :: ws) = w.1 := rfl

@[simp] theorem of_fst (k : Token.Kind) : (of k).1 = k := rfl

/-- Put parentheses around words if `wrap` asks for it. -/
def wrapped (wrap : Bool) (ws : List Word) : List Word :=
  if wrap then of .leftParen :: ws ++ [of .rightParen] else ws

@[simp] theorem wrapped_true (ws : List Word) :
    wrapped true ws = of .leftParen :: ws ++ [of .rightParen] := rfl

@[simp] theorem wrapped_false (ws : List Word) : wrapped false ws = ws := rfl

/-- Put commas between lists of words. -/
def commas : List (List Word) → List Word
  | [] => []
  | [ws] => ws
  | ws :: rest => ws ++ of .comma :: commas rest

/-- Words in braces. -/
def inBraces (ws : List Word) : List Word := of .leftBrace :: ws ++ [of .rightBrace]

end Word

open Word

/-! ## Operators and types -/

/-- The word of an arithmetic operator. -/
def Arith.word : Arith → Word
  | .add => of .plus
  | .sub => of .minus
  | .mul => of .star
  | .div => of .slash
  | .other symbol => (.slash, symbol)

/-- The word of a comparison operator. -/
def Relation.word : Relation → Word
  | .eq => of .equal
  | .ne => of .notEqual
  | .gt => of .greater
  | .lt => of .less
  | .ge => of .greaterEqual
  | .le => of .lessEqual
  | .other symbol => (.equal, symbol)

/-- The word of a sign. -/
def Sign.word : Sign → Word
  | .plus => of .plus
  | .minus => of .minus
  | .other symbol => (.plus, symbol)

/-- The word of a type. -/
def VarType.word : VarType → Word
  | .int => of .intType
  | .string => of .stringType
  | .bool => of .boolType
  | .unknown => (.intType, "unknown")

/-! ## Nodes -/

namespace Node

mutual

/-- The words of an expression. -/
def exprWords : Node → List Word
  | .number _ value => [(.number, Text.ofInt value.toInt)]
  | .str _ value => [(.string, value)]
  | .bool _ value => [(.bool, if value then "true" else "false")]
  | .use _ name => [(.name, name)]
  | .call _ name _ args =>
    (.call, name) :: of .leftParen :: (commas (argWords args) ++ [of .rightParen])
  | .sign _ op operand => op.word :: wrapped operand.isOperation operand.exprWords
  | .arith _ left op right =>
    if op.isAdditive then left.exprWords ++ op.word :: wrapped right.isAdditive right.exprWords
    else
      wrapped (left.isComparison || left.isAdditive) left.exprWords ++ op.word ::
        wrapped right.isOperation right.exprWords
  | .compare _ left op right =>
    wrapped (left.isComparison || left.isAdditive) left.exprWords ++ op.word ::
      wrapped right.isOperation right.exprWords
  | _ => []

/-- The words of arguments, each for itself. -/
def argWords : List Node → List (List Word)
  | [] => []
  | n :: rest => n.exprWords :: argWords rest

end

/-- The words of a parameter. -/
def paramWords (p : Param) : List Word := [p.type.word, (.name, p.name)]

mutual

/-- The words of a statement. -/
def stmtWords : Node → List Word
  | .declare _ name type => [type.word, (.name, name)]
  | .declareAs _ name type value => type.word :: (.name, name) :: of .assign :: value.exprWords
  | .assign _ name value => (.name, name) :: of .assign :: value.exprWords
  | .function _ name params _ body =>
    of .func :: (.call, name) :: of .leftParen ::
      (commas (params.map paramWords) ++ of .rightParen :: inBraces (bodyWords body))
  | .when _ cond _ yes =>
    of .if :: of .leftParen :: (cond.exprWords ++ of .rightParen :: inBraces (bodyWords yes))
  | .choose _ cond _ yes _ no =>
    of .if :: of .leftParen :: (cond.exprWords ++ of .rightParen :: (inBraces (bodyWords yes) ++
      of .else :: inBraces (bodyWords no)))
  | .whileLoop _ cond _ body =>
    of .while :: of .leftParen :: (cond.exprWords ++ of .rightParen :: inBraces (bodyWords body))
  | .forLoop _ init cond step _ body =>
    of .for :: of .leftParen :: (init.stmtWords ++ of .semicolon :: (cond.exprWords ++
      of .semicolon :: (step.stmtWords ++ of .rightParen :: inBraces (bodyWords body))))
  | n => n.exprWords

/-- The words of a body, without the statements that were passed over. -/
def bodyWords : List Node → List Word
  | [] => []
  | .skip _ _ :: rest => bodyWords rest
  | n :: rest => n.stmtWords ++ bodyWords rest

end

/-- What was passed over has no words. -/
theorem bodyWords_cons (n : Node) (ns : List Node) :
    bodyWords (n :: ns) = if n.isSkip then bodyWords ns else n.stmtWords ++ bodyWords ns := by
  cases n <;> simp [bodyWords, isSkip]

end Node

/-- The words of a program. -/
def Program.words (p : Program) : List Word :=
  p.globals.flatMap Node.stmtWords ++ p.functions.flatMap fun f => f.node.stmtWords

/-! ## States at words -/

namespace Parse

/-- A state has a table of functions, has begun a number of them and stands at some words. -/
structure State.At (table : List (Text × Nat)) (begun : Nat) (ws : List Word) (s : State) : Prop where
  words : s.tokens.map (fun t => (t.kind, t.value)) = ws
  functions : s.functions = table
  begun : s.begun = begun

section At

variable {table : List (Text × Nat)} {begun : Nat} {w : Word} {ws : List Word} {s : State}

theorem State.At.kind (h : s.At table begun ws) : s.kind = headKind ws := by
  rw [State.kind, headKind, ← h.words]
  cases s.tokens <;> rfl

/-- The first word is taken. -/
theorem State.At.takes (h : s.At table begun (w :: ws)) :
    ∃ t s', Takes w.1 t s s' ∧ t.value = w.2 ∧ s'.At table begun ws := by
  have hwords := h.words
  cases htokens : s.tokens with
  | nil => simp [htokens] at hwords
  | cons t rest =>
    simp only [htokens, List.map_cons, List.cons.injEq] at hwords
    obtain ⟨rfl, hrest⟩ := hwords
    refine ⟨t, s.after t, ⟨by rw [htokens]; rfl, rfl, rfl⟩, rfl, ?_, h.functions, h.begun⟩
    simp [State.tokens_after, htokens, hrest]

/-- A comma between two items is one of the words. -/
theorem State.At.pastComma {value : Text} (h : s.At table begun ((.comma, value) :: ws)) :
    s.pastComma.At table begun ws := by
  obtain ⟨t, s', ht, -, hs'⟩ := h.takes
  have : s.pastComma = s' := by
    rw [ht.next, State.pastComma, ht.head]
    exact if_pos ht.kind
  rwa [this]

theorem State.At.pastComma_of_ne (h : s.At table begun ws) (hne : headKind ws ≠ .comma) :
    s.pastComma.At table begun ws := by
  rcases s.pastComma_eq with heq | ⟨t, ht⟩
  · rwa [heq]
  · exact absurd ((h.kind.symm.trans (Parser.Takes.kind_eq ht))) hne

/-- Functions are counted as they begin, which takes no word. -/
theorem State.At.begin (h : s.At table begun ws) : s.begin.At table (begun + 1) ws :=
  ⟨h.words, h.functions, congrArg (· + 1) h.begun⟩

theorem State.At.register (h : s.At table begun ws) (name : Text) (number : Nat) :
    (s.register name number).At ((name, number) :: table) begun ws :=
  ⟨h.words, congrArg (_ :: ·) h.functions, h.begun⟩

end At

end Parse

end ScriptKit

-- Giving a class its initial state. An initializer that is already there is
-- merged, its values winning. Otherwise the assignment goes right after the
-- call of the parent's constructor, else before the first statement, else it
-- fills the body; and a class without a constructor gets one as its first
-- member.
import Uplift.Revise.Line
import Uplift.State.Literal

namespace Uplift.Revise

open State (Props)

/-- One nesting level where nothing in the source shows another. -/
def defaultUnit : Text := [' ', ' ']

/-- `this.state = ...;` for a line indented by `indent`. -/
def stateAssignment (props : Props) (indent unit : Text) : Text :=
  "this.state = ".toList ++ props.formatNested indent unit ++ [';']

/-- A constructor indented by `indent`, with a newline before and after it. `typed` annotates
its parameter. -/
def constructorBlock (props : Props) (typed : Bool) (indent unit : Text) : Text :=
  let param := if typed then "props: any".toList else "props".toList
  let inner := indent ++ unit
  '\n' :: indent ++ "constructor(".toList ++ param ++ ") \x7b\n".toList ++
    inner ++ "super(props);\n".toList ++
    inner ++ stateAssignment props inner unit ++ '\n' :: indent ++ "\x7d\n".toList

/-- A constructor that stands alone. -/
def constructorPreview (props : Props) : Text :=
  let isNewline := fun c : Char => c == '\n'
  Text.dropEndWhile isNewline ((constructorBlock props false [] defaultUnit).dropWhile isNewline)

/-- How far `indent` goes beyond `base`. -/
def beyond? (base indent : Text) : Option Text := do
  let unit ← Text.dropLead? indent base
  if unit.isEmpty then none else some unit

/-- The first answer of `f` along a list. A fault of `f` before it is a fault of the search. -/
def firstAnswer {α β : Type} (f : α → Option (Option β)) : List α → Option (Option β)
  | [] => some none
  | a :: rest =>
    match f a with
    | none => none
    | some (some b) => some (some b)
    | some none => firstAnswer f rest

/-- One nesting level as written in `cls`: how far its first indented statement sits beyond
the members. -/
def indentUnit? (source : Text) (cls : ClassDecl) (memberIndent : Text) : Option Text := do
  let statements := cls.members.flatMap (·.statements)
  let found ← firstAnswer
    (fun s => (lineIndent? source s.span.start).map (beyond? memberIndent)) statements
  some (found.getD defaultUnit)

/-- The right side of a statement `this.state = ...;`. -/
def assignedState? (statement : Text) : Option Text := do
  let rest ← Text.dropLead? (Text.trimStart statement) "this.state".toList
  let right ← Text.dropLead? (Text.trimStart rest) ['=']
  if right.head? = some '=' then none else some (Text.trimTerminator right)

/-- The first initializer among the statements, with its right side. -/
def initializer? (body : Body) : Option (Statement × Text) :=
  body.statements.findSome? fun s => (assignedState? s.text).map (s, ·)

def isSuperCall (s : Statement) : Bool :=
  "super(".toList.isPrefixOf (Text.trimStart s.text)

/-- The class has no initializer, or one that new state can be merged into. -/
def isMergeable (cls : ClassDecl) : Bool :=
  match cls.constructorBody?.bind initializer? with
  | none => true
  | some (_, right) => right.head? == some '{'

/-- A change can be refused for a cause, and has no answer at all where a span of the
snapshot does not fit its source. -/
abbrev Revising := ExceptT ApplyError Option

/-- What a place in the source shows; there is no answer where the place does not fit. -/
def fitting {α : Type} (answer : Option α) : Revising α := ExceptT.mk (answer.map .ok)

/-- The edit that makes `props` the initial state, in a constructor with this body. -/
def stateEditIn (source : Text) (body : Body) (props : Props) (memberIndent unit : Text) :
    Revising Edit :=
  match initializer? body with
  | some (s, right) =>
    if right.head? = some '{' then do
      let indent ← fitting (lineIndent? source s.span.start)
      let merged := props.mergedWithExisting (State.parseLiteral right)
      pure ⟨s.span.start, s.span.stop, stateAssignment merged indent unit⟩
    else throw (.unmergeableState s.span.line)
  | none =>
    match body.statements.find? isSuperCall with
    | some s => do
      let indent ← fitting (lineIndent? source s.span.start)
      pure (.insert s.span.stop ('\n' :: indent ++ stateAssignment props indent unit))
    | none =>
      match body.statements with
      | s :: _ => do
        let indent ← fitting (lineIndent? source s.span.start)
        pure (.insert s.span.start (stateAssignment props indent unit ++ '\n' :: indent))
      | [] =>
        let inner := memberIndent ++ unit
        pure ⟨body.span.start, body.span.stop,
          "\x7b\n".toList ++ inner ++ stateAssignment props inner unit ++
            '\n' :: memberIndent ++ ['}']⟩

/-- The edit that makes `props` the initial state of `cls`, whose members are indented by
`memberIndent`. -/
def stateEdit (tree : Snapshot) (cls : ClassDecl) (props : Props) (memberIndent : Text) :
    Revising Edit := do
  let unit ← fitting (indentUnit? tree.source cls memberIndent)
  match cls.constructorBody? with
  | some body => stateEditIn tree.source body props memberIndent unit
  | none =>
    if cls.bodySpan.isEmpty then throw (.missingClassBody cls.span.line)
    else pure (.insert (cls.bodySpan.start + 1)
      (constructorBlock props tree.language.isTyped memberIndent unit))

end Uplift.Revise

-- From a syntax tree to the snapshot of a file. One walk over the tree in
-- preorder visits every node, so each list of the snapshot is in source order.
import Uplift.Script.Cursor
import Uplift.Text.Blank

namespace Uplift.Script

/-- The source under a node. -/
def textOf (source : Text) (t : Tree) : Text := (source.slice? t.span.start t.span.stop).getD []

def stringOf (source : Text) (t : Tree) : String := String.ofList (textOf source t)

/-- Children that carry meaning: named ones, comments left out. -/
def Tree.parts (t : Tree) : List Tree := t.namedChildren.filter (·.kind != .comment)

/-- The name of a field, which goes by one of two roles. -/
def Tree.fieldName? (t : Tree) : Option Tree := (t.child? .name).or (t.child? .property)

/-- A text without the quotes around it. -/
def unquote (t : Text) : Text :=
  let t := Text.trim t
  let inner := fun q : Char => (Text.dropLead? t [q]).bind (Text.dropLast? · q)
  (['\'', '"', '`'].findSome? inner).getD t

section
variable (source : Text)

def extractParam (t : Tree) : Param :=
  let binding := ((t.child? .pattern).or (t.child? .left)).getD t
  ⟨stringOf source binding, binding.span⟩

def extractBody (t : Tree) : Body :=
  ⟨textOf source t, t.span, t.parts.map fun s => ⟨textOf source s, s.span⟩⟩

def extractMethod (t : Tree) : Method :=
  let name := t.child? .name
  { name := (name.map (stringOf source)).getD ""
    isStatic := t.hasToken "static"
    isAsync := t.hasToken "async"
    params := ((t.child? .parameters).map fun p => p.parts.map (extractParam source)).getD []
    body := ((t.child? .body).filter (·.kind == .block)).map (extractBody source)
    nameSpan := (name.map (·.span)).getD Span.none
    text := textOf source t
    span := t.span }

def extractProperty? (t : Tree) : Option Property := do
  let name ← t.fieldName?
  some ⟨stringOf source name, t.hasToken "static", t.span⟩

def extractClass (t : Tree) : ClassDecl :=
  let body := t.child? .body
  let members := (body.map (·.namedChildren)).getD []
  { name := (t.child? .name).map (stringOf source)
    members := (members.filter (·.kind == .method)).map (extractMethod source)
    properties := (members.filter (·.kind == .fieldDefinition)).filterMap (extractProperty? source)
    bodySpan := (body.map (·.span)).getD Span.none
    span := t.span }

def extractAttribute? (t : Tree) : Option Attribute := do
  let name ← t.namedChildren.head?
  let value := t.namedChildren[1]?.map fun v =>
    match v.kind with
    | .string => AttributeValue.string (String.ofList (unquote (textOf source v)))
    | .bracedExpression => .expression (stringOf source v)
    | _ => .element (stringOf source v)
  some ⟨stringOf source name, value, t.span⟩

def extractElement (t : Tree) : Element :=
  { name := ((t.child? .name).map (stringOf source)).getD ""
    selfClosing := t.kind == .selfClosingElement
    attributes := (t.namedChildren.filter (·.kind == .tagAttribute)).filterMap
      (extractAttribute? source)
    span := t.span }

def extractCall? (t : Tree) : Option Call := do
  let callee ← t.child? .callee
  let arguments := (t.child? .arguments).map fun a => a.parts.map (textOf source)
  some ⟨stringOf source callee, arguments.getD [], t.span⟩

def extractMember? (t : Tree) : Option Member := do
  some ⟨stringOf source (← t.child? .object), stringOf source (← t.child? .property), t.span⟩

def extractAssignment? (t : Tree) : Option Assignment := do
  let operator ← if t.kind == .assignment then some "="
    else (t.child? .operator).map (stringOf source)
  some ⟨stringOf source (← t.child? .left), operator, stringOf source (← t.child? .right), t.span⟩

def extractImport? (t : Tree) : Option Import := do
  let required := (t.namedChildren.find? (·.kind == .importRequire)).bind (·.child? .source)
  let origin ← (t.child? .source).or required
  some ⟨String.ofList (unquote (textOf source origin)), t.span⟩

/-- An arrow function has the name of the variable that it initializes. -/
def extractFunction? : Option Tree × Tree → Option Function
  | (parent, t) =>
    match t.kind with
    | .functionDecl => some ⟨(t.child? .name).map (stringOf source), .declaration, t.span⟩
    | .arrow =>
      let owner := (parent.filter (·.kind == .declarator)).bind (·.child? .name)
      some ⟨owner.map (stringOf source), .arrow, t.span⟩
    | _ => none

end

/-- The snapshot that a tree gives. -/
def extract (path : String) (language : Language) (source : Text) (root : Tree) : Snapshot :=
  let visited := root.walk
  let nodes := visited.map (·.2)
  let ofKind := fun (kinds : List Kind) => nodes.filter fun t => kinds.contains t.kind
  { path, language, source
    classes := (nodes.filter fun t => t.named && t.kind == .classDecl).map (extractClass source)
    elements := (ofKind [.selfClosingElement, .openingElement]).map (extractElement source)
    calls := (ofKind [.call]).filterMap (extractCall? source)
    members := (ofKind [.member]).filterMap (extractMember? source)
    assignments := (ofKind [.assignment, .augmentedAssignment]).filterMap
      (extractAssignment? source)
    imports := (ofKind [.importStatement]).filterMap (extractImport? source)
    functions := visited.filterMap (extractFunction? source)
    errorCount := root.countFaults }

end Uplift.Script

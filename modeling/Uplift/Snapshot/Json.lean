-- Snapshots as JSON.
import Uplift.Json.Decode
import Uplift.Snapshot

namespace Uplift

open Json (field? optField? list? text? nat32? nat64?)

namespace Span

def toJson (s : Span) : Json :=
  .obj [("start", .ofNat s.start), ("end", .ofNat s.stop), ("line", .ofNat s.line),
    ("column", .ofNat s.column), ("end_line", .ofNat s.endLine)]

def ofJson? (j : Json) : Option Span := do
  some {
    start := ← field? j "start" nat64?
    stop := ← field? j "end" nat64?
    line := ← field? j "line" nat32?
    column := ← field? j "column" nat32?
    endLine := ← field? j "end_line" nat32? }

end Span

namespace Param

def toJson (p : Param) : Json := .obj [("name", .str p.name), ("span", p.span.toJson)]

def ofJson? (j : Json) : Option Param := do
  some ⟨← field? j "name" Json.str?, ← field? j "span" Span.ofJson?⟩

end Param

namespace Statement

def toJson (s : Statement) : Json := .obj [("text", .ofText s.text), ("span", s.span.toJson)]

def ofJson? (j : Json) : Option Statement := do
  some ⟨← field? j "text" text?, ← field? j "span" Span.ofJson?⟩

end Statement

namespace Body

def toJson (b : Body) : Json :=
  .obj [("text", .ofText b.text), ("span", b.span.toJson),
    ("statements", .arr (b.statements.map Statement.toJson))]

def ofJson? (j : Json) : Option Body := do
  some ⟨← field? j "text" text?, ← field? j "span" Span.ofJson?,
    ← field? j "statements" (list? Statement.ofJson?)⟩

end Body

namespace Method

def toJson (m : Method) : Json :=
  .obj [("name", .str m.name), ("is_static", .bool m.isStatic), ("is_async", .bool m.isAsync),
    ("params", .arr (m.params.map Param.toJson)), ("body", (m.body.map Body.toJson).getD .null),
    ("name_span", m.nameSpan.toJson), ("text", .ofText m.text), ("span", m.span.toJson)]

def ofJson? (j : Json) : Option Method := do
  some {
    name := ← field? j "name" Json.str?
    isStatic := ← field? j "is_static" Json.bool?
    isAsync := ← field? j "is_async" Json.bool?
    params := ← field? j "params" (list? Param.ofJson?)
    body := ← optField? j "body" Body.ofJson?
    nameSpan := ← field? j "name_span" Span.ofJson?
    text := ← field? j "text" text?
    span := ← field? j "span" Span.ofJson? }

end Method

namespace Property

def toJson (p : Property) : Json :=
  .obj [("name", .str p.name), ("is_static", .bool p.isStatic), ("span", p.span.toJson)]

def ofJson? (j : Json) : Option Property := do
  some ⟨← field? j "name" Json.str?, ← field? j "is_static" Json.bool?,
    ← field? j "span" Span.ofJson?⟩

end Property

namespace ClassDecl

def toJson (c : ClassDecl) : Json :=
  .obj [("name", .ofText? c.name), ("methods", .arr (c.members.map Method.toJson)),
    ("properties", .arr (c.properties.map Property.toJson)),
    ("body_span", c.bodySpan.toJson), ("span", c.span.toJson)]

def ofJson? (j : Json) : Option ClassDecl := do
  some {
    name := ← optField? j "name" Json.str?
    members := ← field? j "methods" (list? Method.ofJson?)
    properties := ← field? j "properties" (list? Property.ofJson?)
    bodySpan := ← field? j "body_span" Span.ofJson?
    span := ← field? j "span" Span.ofJson? }

end ClassDecl

namespace AttributeValue

def toJson : AttributeValue → Json
  | string s => .obj [("String", .str s)]
  | expression s => .obj [("Expression", .str s)]
  | element s => .obj [("Element", .str s)]

def ofJson? : Json → Option AttributeValue
  | .obj [("String", .str s)] => some (string s)
  | .obj [("Expression", .str s)] => some (expression s)
  | .obj [("Element", .str s)] => some (element s)
  | _ => none

end AttributeValue

namespace Attribute

def toJson (a : Attribute) : Json :=
  .obj [("name", .str a.name), ("value", (a.value.map AttributeValue.toJson).getD .null),
    ("span", a.span.toJson)]

def ofJson? (j : Json) : Option Attribute := do
  some ⟨← field? j "name" Json.str?, ← optField? j "value" AttributeValue.ofJson?,
    ← field? j "span" Span.ofJson?⟩

end Attribute

namespace Element

def toJson (e : Element) : Json :=
  .obj [("name", .str e.name), ("self_closing", .bool e.selfClosing),
    ("attributes", .arr (e.attributes.map Attribute.toJson)), ("span", e.span.toJson)]

def ofJson? (j : Json) : Option Element := do
  some ⟨← field? j "name" Json.str?, ← field? j "self_closing" Json.bool?,
    ← field? j "attributes" (list? Attribute.ofJson?), ← field? j "span" Span.ofJson?⟩

end Element

namespace Call

def toJson (c : Call) : Json :=
  .obj [("callee", .str c.callee), ("arguments", .arr (c.arguments.map Json.ofText)),
    ("span", c.span.toJson)]

def ofJson? (j : Json) : Option Call := do
  some ⟨← field? j "callee" Json.str?, ← field? j "arguments" (list? text?),
    ← field? j "span" Span.ofJson?⟩

end Call

namespace Member

def toJson (m : Member) : Json :=
  .obj [("object", .str m.object), ("property", .str m.property), ("span", m.span.toJson)]

def ofJson? (j : Json) : Option Member := do
  some ⟨← field? j "object" Json.str?, ← field? j "property" Json.str?,
    ← field? j "span" Span.ofJson?⟩

end Member

namespace Assignment

def toJson (a : Assignment) : Json :=
  .obj [("left", .str a.left), ("operator", .str a.operator), ("right", .str a.right),
    ("span", a.span.toJson)]

def ofJson? (j : Json) : Option Assignment := do
  some ⟨← field? j "left" Json.str?, ← field? j "operator" Json.str?,
    ← field? j "right" Json.str?, ← field? j "span" Span.ofJson?⟩

end Assignment

namespace Import

def toJson (i : Import) : Json := .obj [("specifier", .str i.specifier), ("span", i.span.toJson)]

def ofJson? (j : Json) : Option Import := do
  some ⟨← field? j "specifier" Json.str?, ← field? j "span" Span.ofJson?⟩

end Import

namespace FunctionKind

def name : FunctionKind → String
  | declaration => "Declaration"
  | arrow => "Arrow"

def ofName? (s : String) : Option FunctionKind := [declaration, arrow].find? (·.name == s)

end FunctionKind

namespace Function

def toJson (f : Function) : Json :=
  .obj [("name", .ofText? f.name), ("kind", .str f.kind.name), ("span", f.span.toJson)]

def ofJson? (j : Json) : Option Function := do
  some ⟨← optField? j "name" Json.str?, ← field? j "kind" (Json.named? FunctionKind.ofName?),
    ← field? j "span" Span.ofJson?⟩

end Function

namespace Snapshot

def toJson (t : Snapshot) : Json :=
  .obj [("path", .str t.path), ("language", .str t.language.tag), ("source", .ofText t.source),
    ("classes", .arr (t.classes.map ClassDecl.toJson)),
    ("jsx_elements", .arr (t.elements.map Element.toJson)),
    ("calls", .arr (t.calls.map Call.toJson)),
    ("members", .arr (t.members.map Member.toJson)),
    ("assignments", .arr (t.assignments.map Assignment.toJson)),
    ("imports", .arr (t.imports.map Import.toJson)),
    ("functions", .arr (t.functions.map Function.toJson)),
    ("error_count", .ofNat t.errorCount)]

def ofJson? (j : Json) : Option Snapshot := do
  some {
    path := ← field? j "path" Json.str?
    language := ← field? j "language" (Json.named? Language.ofTag?)
    source := ← field? j "source" text?
    classes := ← field? j "classes" (list? ClassDecl.ofJson?)
    elements := ← field? j "jsx_elements" (list? Element.ofJson?)
    calls := ← field? j "calls" (list? Call.ofJson?)
    members := ← field? j "members" (list? Member.ofJson?)
    assignments := ← field? j "assignments" (list? Assignment.ofJson?)
    imports := ← field? j "imports" (list? Import.ofJson?)
    functions := ← field? j "functions" (list? Function.ofJson?)
    errorCount := ← field? j "error_count" nat32? }

end Snapshot

end Uplift

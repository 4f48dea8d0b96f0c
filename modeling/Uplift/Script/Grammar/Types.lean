-- Types, as they stand in annotations, declarations and type arguments.
import Uplift.Script.Grammar.Basic

namespace Uplift.Script.Grammar

def typeAnnotation : Grammar := .seq (sym ":") (.rule .type)

/-- A word that names a type or a part of its path. -/
def typeWord : Grammar := .token anyWord .other true

/-- `A.B<C>` -/
def typePath : Grammar :=
  .group (all [ident, .many (.seq (sym ".") typeWord), opt (.rule .typeArguments)])

/-- `(a: A) => B`, or the same after `new`. -/
def functionType : Grammar :=
  .group (all [opt (.seq (opt (kw "abstract")) (kw "new")), opt (.rule .typeParameters),
    .rule .parameters, sym "=>",
    .alt (all [opt (kw "asserts"), ident, kw "is", .rule .type]) (.rule .type)])

/-- `extends B ? C : D` after a type. -/
def typeCondition : Grammar :=
  all [kw "extends", .rule .unionType, sym "?", .rule .type, sym ":", .rule .type]

def typeGrammar : Grammar :=
  .group (.alt functionType (.seq (.rule .unionType) (opt typeCondition)))

def unionGrammar : Grammar :=
  let bar := Grammar.alt (sym "|") (sym "&")
  .group (all [opt bar, .rule .typeOperand,
    .many (.seq bar (.alt functionType (.rule .typeOperand)))])

/-- The member of an object named by `typeof`. -/
def typeQueryMember : Kind × (Tree → Tree) × Grammar :=
  (.member, Tree.withRole .object,
    .seq (sym ".") (.role .property (.token (oneOf [anyWord, privateName]) .other true)))

/-- `typeof a.b` -/
def typeQuery : Grammar :=
  let imported : Grammar := .node .call (.seq (.role .callee (.token (word "import") .other true))
    (.role .arguments (.rule .arguments)))
  .group (all [kw "typeof",
    .chain (any [ident, .token (word "this") .other true, imported]) [typeQueryMember],
    opt (.rule .typeArguments)])

def typeOperandGrammar : Grammar :=
  any [
    .group (.seq (any [kw "keyof", kw "unique", kw "readonly", kw "infer"]) (.rule .typeOperand)),
    typeQuery,
    .group (.seq (.rule .primaryType)
      (.many (all [sameLine, sym "[", opt (.rule .type), sym "]"])))]

/-- An element of a tuple, which can have a label. -/
def tupleElement : Grammar :=
  .group (all [opt (sym "..."), opt (all [ident, opt (sym "?"), sym ":"]), .rule .type,
    opt (sym "?")])

def primaryTypeGrammar : Grammar :=
  any [
    .group (all [sym "(", .rule .type, sym ")"]),
    .rule .objectType,
    .node .other (all [sym "[", commas tupleElement, sym "]"]),
    stringToken,
    .group (.seq (opt (sym "-")) (.token number .other true)),
    .rule .template,
    .group (all [kw "import", .rule .arguments, .many (.seq (sym ".") typeWord),
      opt (.rule .typeArguments)]),
    .token (oneOf [word "void", word "null", word "true", word "false", word "this"]) .other true,
    typePath]

def objectTypeGrammar : Grammar :=
  .node .other (all [openBrace, .many (any [sym ";", sym ",", .rule .typeMember]), closeBrace])

def memberModifiers : Grammar :=
  .many (any (["declare", "public", "private", "protected", "static", "override", "readonly",
    "abstract", "accessor", "async", "get", "set"].map modifier))

/-- `[key: A]: B` -/
def indexSignature : Grammar :=
  .node .other (all [memberModifiers, sym "[", ident, sym ":", .rule .type, sym "]",
    opt typeAnnotation])

def sign : Grammar := .alt (sym "-") (sym "+")

/-- `[K in A as B]?: C` -/
def mappedMember : Grammar :=
  all [opt (.seq (opt sign) (kw "readonly")), sym "[", ident, kw "in", .rule .type,
    opt (.seq (kw "as") (.rule .type)), sym "]", opt (.seq (opt sign) (sym "?")),
    opt typeAnnotation]

/-- The parameters and the result of a method. -/
def signature : Grammar :=
  all [opt (typed (.rule .typeParameters)), .role .parameters (.rule .parameters),
    opt (typed (.rule .returnType))]

def methodSignature : Grammar :=
  .node .other (all [memberModifiers, .rule .propertyName, opt (sym "?"), signature])

def typeMemberGrammar : Grammar :=
  .group (any [
    mappedMember,
    indexSignature,
    all [opt (kw "new"), signature],
    methodSignature,
    all [memberModifiers, .rule .propertyName, opt (sym "?"), opt typeAnnotation]])

def typeArgumentsGrammar : Grammar := .node .other (all [lit "<", commas1 (.rule .type), lit ">"])

def typeParameter : Grammar :=
  .group (all [
    .many (any (["const", "in", "out"].map fun s => .seq (kw s) (next identifier))),
    ident, opt (.seq (kw "extends") (.rule .type)), opt (.seq (sym "=") (.rule .type))])

def typeParametersGrammar : Grammar := .node .other (all [lit "<", commas typeParameter, lit ">"])

/-- `: A`, or a statement about an argument. -/
def returnTypeGrammar : Grammar :=
  let subject := Grammar.alt ident (.token (word "this") .other true)
  .seq (sym ":") (any [
    .group (all [opt (.seq (kw "asserts") sameLine), subject, sameLine, kw "is", .rule .type]),
    .group (all [kw "asserts", sameLine, subject]),
    .rule .type])

end Uplift.Script.Grammar

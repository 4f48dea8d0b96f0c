-- Expressions: the operators from loose to tight, then what they join.
import Uplift.Script.Grammar.Types

namespace Uplift.Script.Grammar

/-! ## Names and patterns -/

def propertyNameGrammar : Grammar :=
  any [
    .token (oneOf [anyWord, privateName]) .other true,
    stringToken,
    .token number .other true,
    .node .other (all [sym "[", .rule .assignment, sym "]"])]

/-- A target with the value it has by default. -/
def withDefault (g : Grammar) : Grammar :=
  .chain g [(.other, Tree.withRole .left, .seq (sym "=") (.role .right (.rule .assignment)))]

def objectPattern : Grammar :=
  .node .other (all [openBrace, commas (any [
    .node .other (.seq (sym "...") (.rule .bindingTarget)),
    .node .other (all [.rule .propertyName, sym ":", withDefault (.rule .bindingTarget)]),
    withDefault ident]), closeBrace])

def arrayPattern : Grammar :=
  .node .other (all [sym "[",
    .many (.alt (sym ",") (withDefault (.rule .bindingTarget))), sym "]"])

def bindingTargetGrammar : Grammar :=
  any [ident, objectPattern, arrayPattern,
    .node .other (.seq (sym "...") (.rule .bindingTarget))]

/-- A binding starts here, so a word before it is a modifier. -/
def opensBinding (t : Text) : Bool :=
  (identifier t).isSome || (word "this" t).isSome || t.head? == some '{' || t.head? == some '['

def typedParameter : Grammar :=
  let modifiers := any (["public", "private", "protected", "override", "readonly"].map fun s =>
    .seq (kw s) (.ahead fun _ t => opensBinding t))
  .node .other (all [.many (.rule .decorator), .many modifiers,
    .role .pattern (.alt (.rule .bindingTarget) (.token (word "this") .other true)),
    opt (sym "?"), opt typeAnnotation,
    opt (.seq (sym "=") (.rule .assignment))])

def parameterGrammar : Grammar := .alt (typed typedParameter) (withDefault (.rule .bindingTarget))

def parametersGrammar : Grammar := .node .other (all [sym "(", commas (.rule .parameter), sym ")"])

def functionRestGrammar : Grammar := .seq signature (.role .body (.rule .block))

/-! ## Operators -/

def expressionGrammar : Grammar := .group (commas1 (.rule .assignment))

def arrowBody : Grammar := .seq (sym "=>") (.alt (.rule .block) (.rule .assignment))

/-- `x => y` -/
def simpleArrow : Grammar :=
  .node .arrow (all [opt (all [kw "async", sameLine, next identifier]), ident, arrowBody])

/-- `(x) => y` -/
def arrow : Grammar :=
  .node .arrow (all [opt (.seq (kw "async") sameLine), signature, arrowBody])

def yieldExpression : Grammar :=
  .group (.seq (kw "yield") (opt (all [sameLine, opt (sym "*"), .rule .assignment])))

def augmentedOperator : Grammar :=
  .token (oneOf (["+=", "-=", "*=", "/=", "%=", "**=", "<<=", ">>=", ">>>=", "&=", "|=", "^=",
    "&&=", "||=", "??="].map mark)) .other true

def assignmentGrammar : Grammar :=
  any [
    simpleArrow,
    arrow,
    yieldExpression,
    .chain (.rule .conditional) [
      (.assignment, fun t => t.asPattern.withRole .left,
        .seq (sym "=") (.role .right (.rule .assignment))),
      (.augmentedAssignment, Tree.withRole .left,
        .seq (.role .operator augmentedOperator) (.role .right (.rule .assignment)))]]

def binaryOperator : Grammar :=
  .token (oneOf ((["||", "&&", "??", "|", "^", "&", "==", "!=", "===", "!==", "<", ">", "<=", ">=",
    "<<", ">>", ">>>", "+", "-", "*", "/", "%", "**"].map mark) ++
    ["in", "instanceof"].map word)) (.token "") false

def binary : Grammar :=
  .group (.seq (.rule .unary) (.many (any [
    .seq binaryOperator (.rule .unary),
    typed (all [sameLine, kw "as", .alt (kw "const") (.rule .type)]),
    typed (all [sameLine, kw "satisfies", .rule .type])])))

def parenthesized : Grammar := .node .other (all [sym "(", .rule .expression, sym ")"])

/-- In `a ? (b) : c => d` the brackets hold an expression and no parameters. -/
def conditionalGrammar : Grammar :=
  .group (.seq binary (opt (any [
    all [sym "?", .rule .assignment, sym ":", .rule .assignment],
    all [sym "?", parenthesized, sym ":", .rule .assignment]])))

/-- An operand starts here. -/
def opensOperand (t : Text) : Bool :=
  match t with
  | [] => false
  | c :: _ => isNameChar c || "\"'`([\x7b</!+-~#@.\\".toList.contains c

def unaryGrammar : Grammar :=
  let operator := Grammar.token (oneOf ((["!", "~", "+", "-", "++", "--"].map mark) ++
    ["typeof", "void", "delete"].map word)) (.token "") false
  any [
    .node .other (.seq operator (.rule .unary)),
    .node .other (all [kw "await",
      .ahead fun _ t => opensOperand t && (word "in" t).isNone && (word "instanceof" t).isNone,
      .rule .unary]),
    .only (· == .typeScript) (.node .other (all [lit "<", .rule .type, lit ">", .rule .unary])),
    .rule .suffixed]

/-! ## Chains -/

def memberSuffix (dots : Grammar) : Kind × (Tree → Tree) × Grammar :=
  (.member, Tree.withRole .object,
    .seq dots (.role .property (.token (oneOf [anyWord, privateName]) .other true)))

def subscriptSuffix : Kind × (Tree → Tree) × Grammar :=
  (.other, id, all [opt (sym "?."), sym "[", .rule .expression, sym "]"])

def callSuffix : Kind × (Tree → Tree) × Grammar :=
  (.call, Tree.withRole .callee,
    all [opt (sym "?."), opt (typed (.rule .typeArguments)), .role .arguments (.rule .arguments)])

/-- A tag before a template calls it. -/
def templateSuffix : Kind × (Tree → Tree) × Grammar :=
  (.call, Tree.withRole .callee, .role .arguments (.rule .template))

def nonNullSuffix : Kind × (Tree → Tree) × Grammar :=
  (.other, id, typed (.seq sameLine (sym "!")))

/-- Type arguments that no call follows. -/
def instantiationSuffix : Kind × (Tree → Tree) × Grammar :=
  (.other, id, typed (.seq (.rule .typeArguments) (.ahead fun broken t =>
    broken || t.isEmpty || (t.head?.map (";,)]\x7d".toList.contains ·)) == some true)))

def leftHand : Grammar :=
  .chain (.rule .primary)
    [memberSuffix (.alt (sym ".") (sym "?.")), callSuffix, subscriptSuffix, templateSuffix,
      nonNullSuffix, instantiationSuffix]

def suffixedGrammar : Grammar :=
  .group (.seq leftHand (opt (.seq sameLine (.alt (sym "++") (sym "--")))))

def newTargetGrammar : Grammar :=
  .chain (.rule .primary) [memberSuffix (sym "."), subscriptSuffix, nonNullSuffix]

def newExpression : Grammar :=
  .node .other (.seq (kw "new") (.alt (.seq (sym ".") (kw "target"))
    (all [.rule .newTarget, opt (typed (.rule .typeArguments)), opt (.rule .arguments)])))

/-! ## Operands -/

def spread : Grammar := .node .spread (.seq (sym "...") (.rule .assignment))

def argumentsGrammar : Grammar :=
  .node .other (all [sym "(", commas (.alt spread (.rule .assignment)), sym ")"])

def templateGrammar : Grammar :=
  .node .other (all [lit "`",
    .many (any [
      .here templateFragment .other true,
      .here escapeSequence .other true,
      .node .other (all [.here (exactly "$\x7b") (.token "$\x7b") false, .rule .expression,
        closeBrace])]),
    .here (exactly "`") (.token "`") false])

def arrayGrammar : Grammar :=
  .node .array (all [sym "[", .many (any [sym ",", spread, .rule .assignment]), sym "]"])

def methodModifiers : Grammar :=
  .seq (opt (modifier "async")) (opt (any [modifier "get", modifier "set", sym "*"]))

def objectMemberGrammar : Grammar :=
  any [
    .node .pair (all [.rule .propertyName, sym ":", .rule .assignment]),
    spread,
    .node .method (all [methodModifiers, .role .name (.rule .propertyName),
      .rule .functionRest]),
    withDefault ident]

def objectGrammar : Grammar :=
  .node .object (all [openBrace, commas (.rule .objectMember), closeBrace])

def functionExpression : Grammar :=
  .node .other (all [opt (.seq (kw "async") sameLine), kw "function", opt (sym "*"),
    opt (.role .name ident), .rule .functionRest])

def className : Grammar := .seq (notNext (word "implements")) (.role .name ident)

def classExpression : Grammar :=
  .node .classDecl (all [.many (.rule .decorator), kw "class", opt className, .rule .classTail])

/-- `import(...)` and `import.meta`; the call is a suffix. -/
def importOperand : Grammar :=
  .alt (.node .other (all [kw "import", sym ".", kw "meta"]))
    (.seq (.token (word "import") .other true) (next (exactly "(")))

def primaryGrammar : Grammar :=
  any [
    .seq (.ahead fun _ t => (word "async" t).isSome) functionExpression,
    ident,
    .token (oneOf (["this", "super", "null", "true", "false"].map word)) .other true,
    stringToken,
    .token number .other true,
    .rule .template,
    parenthesized,
    objectGrammar,
    arrayGrammar,
    .only (· != .typeScript) (.rule .element),
    functionExpression,
    newExpression,
    classExpression,
    importOperand,
    .token patternLiteral .other true,
    .token privateName .other true]

/-! ## Elements -/

def tagNameToken : Grammar := .token tagName .other true

def elementName : Grammar :=
  .chain tagNameToken [
    (.member, Tree.withRole .object, .seq (sym ".") (.role .property tagNameToken)),
    (.other, id, .seq (sym ":") tagNameToken)]

def bracedExpression : Grammar :=
  .node .bracedExpression (all [openBrace, opt (.alt spread (.rule .expression)), closeBrace])

def attributeValue : Grammar :=
  any [.token attributeString .string true, bracedExpression, .rule .element]

def tagAttribute : Grammar :=
  .node .tagAttribute (.seq (.group (.seq tagNameToken (opt (.seq (sym ":") tagNameToken))))
    (opt (.seq (sym "=") attributeValue)))

def elementHead : Grammar :=
  .seq (lit "<") (opt (all [.role .name elementName, opt (typed (.rule .typeArguments)),
    .many (.alt tagAttribute bracedExpression)]))

def closingElement : Grammar :=
  .node .other (all [lit "<", lit "/", opt elementName, lit ">"])

/-- The next token opens an element and does not close one. -/
def opensElement (t : Text) : Bool :=
  match t with
  | '<' :: rest => (rest.dropWhile isGap).head? != some '/'
  | _ => false

def elementGrammar : Grammar :=
  .group (.seq (.ahead fun _ t => opensElement t)
    (.fork elementHead [
      (.selfClosingElement, .seq (lit "/") (lit ">"), .empty),
      (.openingElement, lit ">", .seq (.many (.rule .elementChild)) closingElement)]))

def elementChildGrammar : Grammar :=
  any [.here tagText .other true, bracedExpression, .rule .element]

end Uplift.Script.Grammar

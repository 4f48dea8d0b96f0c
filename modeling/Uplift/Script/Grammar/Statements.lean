-- Statements, declarations and classes.
import Uplift.Script.Grammar.Expressions

namespace Uplift.Script.Grammar

/-! ## Classes -/

def decoratorGrammar : Grammar :=
  .node .other (.seq (lit "@")
    (.chain (.alt ident parenthesized) [memberSuffix (sym "."), callSuffix]))

def heritage : Grammar :=
  .alt
    (untyped (opt (.node .other (.seq (kw "extends") leftHand))))
    (.seq
      (opt (.node .other (.seq (kw "extends")
        (commas1 (.seq leftHand (opt (.rule .typeArguments)))))))
      (opt (.node .other (.seq (kw "implements") (commas1 (.rule .type))))))

def staticBlock : Grammar := .node .other (.seq (kw "static") (.rule .block))

def initializer : Grammar := opt (.seq (sym "=") (.rule .assignment))

def classMemberGrammar : Grammar :=
  any [
    staticBlock,
    .node .method (all [.many (.rule .decorator), opt (modifier "static"), methodModifiers,
      .role .name (.rule .propertyName), .rule .functionRest]),
    .seq
      (.node .fieldDefinition (all [.many (.rule .decorator), opt (modifier "static"),
        .role .property (.rule .propertyName), initializer]))
      semicolon]

def accessModifier : Grammar :=
  any [modifier "public", modifier "private", modifier "protected"]

/-- A member of a class with types. What only declares a method is no method. -/
def typedMemberGrammar : Grammar :=
  let ending := Grammar.alt semicolon (sym ",")
  any [
    staticBlock,
    .seq (.many (.rule .decorator))
      (.node .method (all [opt accessModifier, opt (modifier "static"), opt (modifier "override"),
        opt (modifier "readonly"), methodModifiers, .role .name (.rule .propertyName),
        opt (sym "?"), .rule .functionRest])),
    all [.many (.rule .decorator), methodSignature, ending],
    .seq indexSignature ending,
    .seq
      (.node .fieldDefinition (all [.many (.rule .decorator), memberModifiers,
        .role .name (.rule .propertyName), opt (.alt (sym "?") (sym "!")), opt typeAnnotation,
        initializer]))
      ending]

def classBody : Grammar :=
  .node .other (all [openBrace, .many (any [sym ";", untyped (.rule .classMember),
    typed (.rule .typedMember)]), closeBrace])

def classTailGrammar : Grammar :=
  all [opt (typed (.rule .typeParameters)), heritage, .role .body classBody]

/-! ## Declarations -/

def functionDeclaration : Grammar :=
  .node .functionDecl (all [opt (.seq (kw "async") sameLine), kw "function", opt (sym "*"),
    .role .name ident, .rule .functionRest])

def functionSignature : Grammar :=
  .node .other (all [opt (.seq (kw "async") sameLine), kw "function", opt (sym "*"),
    ident, signature, semicolon])

def classDeclaration : Grammar :=
  .node .classDecl (all [.many (.rule .decorator), opt (typed (kw "abstract")), kw "class",
    .role .name ident, .rule .classTail])

def declarator : Grammar :=
  .node .declarator (all [.role .name (.rule .bindingTarget), opt (typed (sym "!")),
    opt (typed typeAnnotation), initializer])

def variableDeclaration : Grammar :=
  .node .other (all [
    any [kw "const", .seq (kw "let") (.ahead fun _ t => opensBinding t), kw "var"],
    commas1 declarator, semicolon])

def interfaceDeclaration : Grammar :=
  .node .other (all [kw "interface", sameLine, ident, opt (.rule .typeParameters),
    opt (.seq (kw "extends") (commas1 (.rule .type))), .rule .objectType])

def typeAlias : Grammar :=
  .node .other (all [kw "type", sameLine, ident, opt (.rule .typeParameters), sym "=",
    .rule .type, semicolon])

def enumDeclaration : Grammar :=
  .node .other (all [opt (kw "const"), kw "enum", ident, openBrace,
    commas (.group (.seq (.rule .propertyName) initializer)), closeBrace])

def dottedName : Grammar :=
  .group (.seq ident (.many (.seq (sym ".") (.token anyWord .other true))))

def moduleDeclaration : Grammar :=
  .node .other (all [.alt (kw "namespace") (kw "module"), sameLine, .alt stringToken dottedName,
    .alt (.rule .block) semicolon])

/-- `import a = b.c` -/
def importAlias : Grammar :=
  .node .other (all [kw "import", opt (.seq (kw "type") (next identifier)), ident, sym "=",
    dottedName, semicolon])

def ambientDeclaration : Grammar :=
  .node .other (all [kw "declare", sameLine,
    .alt (.rule .declaration) (.seq (kw "global") (.rule .block))])

def declarationGrammar : Grammar :=
  any [
    variableDeclaration,
    functionDeclaration,
    classDeclaration,
    typed (any [functionSignature, interfaceDeclaration, typeAlias, enumDeclaration,
      moduleDeclaration, importAlias, ambientDeclaration])]

/-! ## Imports and exports -/

def someWord : Grammar := .token anyWord .other true

/-- `{ a, b as c }` -/
def nameList : Grammar :=
  let one := Grammar.alt someWord stringToken
  .node .other (all [openBrace, commas (.group (.seq one (.many one))), closeBrace])

def allAs : Grammar := .group (all [sym "*", kw "as", ident])

def importClause : Grammar :=
  .group (any [allAs, nameList, .seq ident (opt (.seq (sym ",") (.alt allAs nameList)))])

def importAttributes : Grammar :=
  opt (.group (.seq (.alt (kw "with") (kw "assert")) objectGrammar))

def fromSource : Grammar := .seq (kw "from") (.role .source stringToken)

/-- `a = require('b')` -/
def importRequire : Grammar :=
  .node .importRequire (all [ident, sym "=", kw "require", sym "(", .role .source stringToken,
    sym ")"])

def importStatement : Grammar :=
  let kindWord := Grammar.alt (kw "type") (kw "typeof")
  .node .importStatement (all [kw "import",
    any [
      .role .source stringToken,
      typed (all [kindWord, importClause, fromSource]),
      .seq importClause fromSource,
      typed (.seq (opt (.seq (kw "type") (next identifier))) importRequire)],
    importAttributes, semicolon])

def exportFrom : Grammar := .seq fromSource importAttributes

def exportStatement : Grammar :=
  .node .other (all [.many (.rule .decorator), kw "export",
    any [
      .seq (kw "default") (any [functionDeclaration, classDeclaration,
        typed interfaceDeclaration, .seq (.rule .assignment) semicolon]),
      all [opt (typed (kw "type")), sym "*", opt (.seq (kw "as") (.alt someWord stringToken)),
        exportFrom, semicolon],
      all [opt (typed (kw "type")), nameList, opt exportFrom, semicolon],
      typed (any [
        all [sym "=", .rule .expression, semicolon],
        all [kw "as", kw "namespace", ident, semicolon],
        importStatement]),
      .rule .declaration]])

/-! ## Statements -/

def blockGrammar : Grammar := .node .block (all [openBrace, .many (.rule .statement), closeBrace])

def ifStatement : Grammar :=
  .node .other (all [kw "if", parenthesized, .rule .statement,
    opt (.node .other (.seq (kw "else") (.rule .statement)))])

def forHeader : Grammar :=
  let link := Grammar.alt (kw "of") (kw "in")
  any [
    all [any [kw "const", kw "let", kw "var"], .rule .bindingTarget, opt (typed typeAnnotation),
      link, .rule .expression, sym ")"],
    all [leftHand, link, .rule .expression, sym ")"],
    all [.alt variableDeclaration (.seq (opt (.rule .expression)) (sym ";")),
      opt (.rule .expression), sym ";", opt (.rule .expression), sym ")"]]

def forStatement : Grammar :=
  .node .other (all [kw "for", opt (kw "await"), sym "(", forHeader, .rule .statement])

def whileStatement : Grammar := .node .other (all [kw "while", parenthesized, .rule .statement])

def doStatement : Grammar :=
  .node .other (all [kw "do", .rule .statement, kw "while", parenthesized, opt (sym ";")])

def tryStatement : Grammar :=
  .node .other (all [kw "try", .rule .block,
    opt (.node .other (all [kw "catch",
      opt (all [sym "(", .rule .bindingTarget, opt (typed typeAnnotation), sym ")"]),
      .rule .block])),
    opt (.node .other (.seq (kw "finally") (.rule .block)))])

def switchStatement : Grammar :=
  let body := Grammar.many (.rule .statement)
  .node .other (all [kw "switch", parenthesized,
    .node .other (all [openBrace, .many (.alt
      (.node .other (all [kw "case", .rule .expression, sym ":", body]))
      (.node .other (all [kw "default", sym ":", body]))), closeBrace])])

/-- What `return` gives back stands on its line, unless the next line can only carry on. -/
def returnStatement : Grammar :=
  .node .other (all [kw "return",
    opt (.seq (.ahead fun broken t => !(broken && endsStatement t)) (.rule .expression)),
    semicolon])

def jumpStatement : Grammar :=
  .node .other (all [.alt (kw "break") (kw "continue"), opt (.seq sameLine ident), semicolon])

def statementGrammar : Grammar :=
  any [
    .rule .block,
    .rule .declaration,
    .node .other (sym ";"),
    ifStatement,
    returnStatement,
    forStatement,
    whileStatement,
    doStatement,
    tryStatement,
    switchStatement,
    jumpStatement,
    .node .other (all [kw "throw", .rule .expression, semicolon]),
    .node .other (.seq (kw "debugger") semicolon),
    .node .other (all [kw "with", parenthesized, .rule .statement]),
    importStatement,
    exportStatement,
    .node .other (all [ident, sym ":", .rule .statement]),
    .node .other (.seq (.rule .expression) semicolon)]

/-- The grammar of each rule. -/
def rules : Rule → Grammar
  | .statement => statementGrammar
  | .block => blockGrammar
  | .declaration => declarationGrammar
  | .classTail => classTailGrammar
  | .classMember => classMemberGrammar
  | .typedMember => typedMemberGrammar
  | .decorator => decoratorGrammar
  | .parameters => parametersGrammar
  | .parameter => parameterGrammar
  | .bindingTarget => bindingTargetGrammar
  | .functionRest => functionRestGrammar
  | .expression => expressionGrammar
  | .assignment => assignmentGrammar
  | .conditional => conditionalGrammar
  | .unary => unaryGrammar
  | .suffixed => suffixedGrammar
  | .primary => primaryGrammar
  | .newTarget => newTargetGrammar
  | .propertyName => propertyNameGrammar
  | .objectMember => objectMemberGrammar
  | .arguments => argumentsGrammar
  | .template => templateGrammar
  | .element => elementGrammar
  | .elementChild => elementChildGrammar
  | .type => typeGrammar
  | .unionType => unionGrammar
  | .typeOperand => typeOperandGrammar
  | .primaryType => primaryTypeGrammar
  | .objectType => objectTypeGrammar
  | .typeMember => typeMemberGrammar
  | .typeArguments => typeArgumentsGrammar
  | .typeParameters => typeParametersGrammar
  | .returnType => returnTypeGrammar

/-- A whole file. -/
def program : Grammar :=
  .node .program (all [opt (.here interpreterLine .other true), .many (.rule .statement),
    .ahead fun _ t => t.isEmpty])

end Uplift.Script.Grammar

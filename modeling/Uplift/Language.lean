-- The dialects a source file can be written in, chosen by its extension.
import Uplift.Path

namespace Uplift

/-- A dialect of JavaScript. -/
inductive Language where
  | typeScript
  | tsx
  | javaScript
deriving DecidableEq

namespace Language

def extensions : Language → List String
  | typeScript => ["ts", "mts", "cts"]
  | tsx => ["tsx"]
  | javaScript => ["js", "jsx", "mjs", "cjs"]

/-- The name shown to people. -/
def name : Language → String
  | typeScript => "TypeScript"
  | tsx => "TSX"
  | javaScript => "JavaScript"

/-- The name used in data files. -/
def tag : Language → String
  | typeScript => "TypeScript"
  | tsx => "Tsx"
  | javaScript => "JavaScript"

def ofTag? (s : String) : Option Language :=
  [typeScript, tsx, javaScript].find? (·.tag == s)

def ofExtension? (ext : String) : Option Language :=
  [typeScript, tsx, javaScript].find? (·.extensions.contains ext)

def ofPath? (path : String) : Option Language := do ofExtension? (← Path.extension? path)

/-- Type annotations are part of the dialect. -/
def isTyped : Language → Bool
  | javaScript => false
  | _ => true

end Language

end Uplift

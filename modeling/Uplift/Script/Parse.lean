-- Parsing a file. The dialect follows from the extension. A text that the
-- grammar does not cover counts one error and has no constructs.
import Uplift.Error
import Uplift.Script.Extract
import Uplift.Script.Grammar.Statements

namespace Uplift

namespace Script

/-- How deep a reading of `source` can go. Between two tokens only so many rules are nested. -/
def depthLimit (source : Text) : Nat := 400 * (source.length + 10)

/-- The syntax tree of a whole text. -/
def tree? (language : Language) (source : Text) : Option Tree := do
  let (trees, _) ← Grammar.read Grammar.rules language (depthLimit source) Grammar.program
    { rest := source }
  trees.head?

end Script

namespace Snapshot

def ofText (path : String) (language : Language) (source : Text) : Snapshot :=
  match Script.tree? language source with
  | some root => Script.extract path language source root
  | none => { blank path language source with errorCount := 1 }

/-- The snapshot of a file's text. -/
def ofSource (path : String) (source : Text) : Except ParseError Snapshot :=
  match Language.ofPath? path with
  | none => .error (.unsupportedLanguage ((Path.extension? path).getD ""))
  | some language => .ok (ofText path language source)

end Snapshot

end Uplift

-- What a scan passes over without being told: dependencies, build output,
-- caches and generated files.
import Uplift.Error
import Uplift.Ignore.Rule

namespace Uplift

namespace IgnoreRules

/-- Directories of package managers, version control, editors, build output, test runs,
framework caches and temporary files. -/
def defaultDirectories : List String :=
  ["node_modules", ".pnpm", ".pnpm-store", ".yarn", ".npm", "bower_components", "jspm_packages",
    ".git", ".svn", ".hg",
    ".idea", ".vscode",
    "dist", "build", "out", "lib-esm", "storybook-static",
    "coverage", ".nyc_output", "__snapshots__",
    ".cache", ".parcel-cache", ".next", ".nuxt", ".turbo", ".vercel", ".docusaurus", ".expo",
    "tmp", "temp"]

/-- Files that no one writes by hand. -/
def defaultFiles : List String :=
  ["*.min.js", "*.bundle.js", "*.chunk.js", "*.map", "*.d.ts", "*.generated.*"]

/-- The rules on lines that must all be in order. -/
def ofLines (lines : List String) : Except ScanError (List IgnoreRule) := do
  let rules ← lines.mapM fun line =>
    (IgnoreRule.ofLine line.toList).mapError fun fault =>
      let shown := String.ofList (IgnoreRule.trimLine line.toList)
      .invalidPattern line (fault.messageFor shown)
  return rules.filterMap id

/-- The default rules, and then the given lines. -/
def defaultsAnd (extra : List String) : Except ScanError (List IgnoreRule) :=
  ofLines (defaultDirectories ++ defaultFiles ++ extra)

end IgnoreRules

end Uplift

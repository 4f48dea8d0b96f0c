-- One call of the program over a disk: settings, detection, fixes, writing and
-- the report.
import Uplift.Catalog.Load
import Uplift.Catalog.React
import Uplift.Cli.Args
import Uplift.Config.Files
import Uplift.Discover
import Uplift.Report.Console
import Uplift.Store.Disk

namespace Uplift.Cli

/-- What the program sees of its surroundings beside its arguments and the disk. -/
structure Surroundings where
  home : Option String := none
  env : Environment := {}
  /-- Standard output is a terminal. -/
  terminal : Bool := false

/-- How a call ends. -/
structure Ending where
  exitCode : Nat
  output : String := ""
  /-- The line for standard error, with its code. -/
  failure : Option (String × String) := none
  disk : Disk

def versionText : String := "retrofit 0.1.0\n"

def helpText : String :=
  "Find deprecated React APIs and fix the safe ones\n\n" ++
  "Usage: retrofit [OPTIONS] [PATTERN]\n\n" ++
  "Arguments:\n" ++
  "  [PATTERN]  File, directory or glob to scan [default: " ++ defaultPattern ++ "]\n\n" ++
  "Options:\n" ++
  "      --dry-run            Report fixes without modifying any file\n" ++
  "      --format <FORMAT>    Output format [default: console] [possible values: console, json]\n" ++
  "      --config <CONFIG>    Config file to use instead of the layered lookup\n" ++
  "      --catalog <CATALOG>  Rule catalog JSON replacing the built-in one\n" ++
  "      --no-color           Disable ANSI colors in console output\n" ++
  "  -h, --help               Print help\n" ++
  "  -V, --version            Print version\n"

/-- The settings of a call. A file that is named stands alone; a catalog that is named counts
in any case. -/
def configOf (d : Disk) (s : Surroundings) (o : Options) : Except ConfigError Config := do
  let config ← match o.config with
    | some path => Config.loadPath d path
    | none =>
      Config.loadFrom d s.home (Discover.placeText d.here) s.env
        { dryRun := if o.dryRun then some true else none, catalogPath := o.catalog }
  return { config with catalogPath := o.catalog <|> config.catalogPath }

/-- The catalog at a path, or the one that comes with the program. -/
def catalogOf (d : Disk) : Option String → Except CatalogError Catalog
  | none => .ok .react
  | some path =>
    match d.readText path with
    | .error refusal => .error (.unreadable path refusal.message)
    | .ok text => Catalog.ofText text

/-- What a run needs: settings, catalog, and what was found. -/
def detectFor (d : Disk) (s : Surroundings) (o : Options) (pattern : String) :
    Except (String × String) (Config × Detection) := do
  let config ← (configOf d s o).mapError fun e => (e.code, codedMessage e.code e.message)
  let catalog ← (catalogOf d config.catalogPath).mapError fun e =>
    (e.code, codedMessage e.code e.message)
  let found ← (discover d s.home config.scan pattern).mapError fun e =>
    (e.code, (RunError.scan e).coded)
  return (config, detectDiscovered Disk.store d Scanner.defaults catalog found)

/-- Write the fixes, unless the run is dry. -/
def applyFor (d : Disk) (dryRun : Bool) (fixes : List Fix) :
    Option (Disk × Option ApplyReport) :=
  if dryRun then some (d, none)
  else (Fix.applyAll Disk.store d fixes).map fun (d, report) => (d, some report)

/-- Run with these options. The exit code tells whether every file could be written. -/
def runWith (d : Disk) (s : Surroundings) (o : Options) : Ending :=
  let pattern := o.pattern.getD defaultPattern
  match detectFor d s o pattern with
  | .error failure => { exitCode := 1, failure := some failure, disk := d }
  | .ok (config, detection) =>
    let dryRun := o.dryRun || config.fix.isDryRun
    let (fixes, errors) := Fix.generate Disk.store d detection.issues
    let threshold := (Confidence.ofName? config.fix.confidenceName).getD .high
    match applyFor d dryRun fixes with
    | none => { exitCode := 101, disk := d }
    | some (disk, report) =>
      let summary := RunSummary.ofRun pattern dryRun detection fixes errors threshold report
      let text := match o.format.getD .console with
        | .console => Report.console (!o.noColour && s.terminal) summary
        | .json => summary.toJson.renderPretty
      { exitCode := if report.all (·.isClean) then 0 else 1, output := text ++ "\n", disk }

/-- One call of the program. -/
def run (d : Disk) (s : Surroundings) (args : List String) : Ending :=
  match read args with
  | .run options => runWith d s options
  | .help => { exitCode := 0, output := helpText, disk := d }
  | .version => { exitCode := 0, output := versionText, disk := d }
  | .misuse => { exitCode := 2, disk := d }

end Uplift.Cli

-- Ignore files on a disk. A line that is no rule is passed over and reported,
-- and nothing counts after bytes that are no text.
import Uplift.Disk
import Uplift.Ignore.Rule

namespace Uplift.IgnoreFile

/-- What is read from an ignore file: its rules, and a report per line that failed. A report
about bytes counts only beside others. -/
structure Contents where
  rules : List IgnoreRule := []
  reports : List String := []
  broken : Option String := none

/-- The lines of a file, without their ends. -/
def splitLines (done : Bytes) : Bytes → List Bytes
  | [] => if done.isEmpty then [] else [done.reverse]
  | b :: rest =>
    if b = 10 then
      let line := match done with
        | 13 :: before => before.reverse
        | done => done.reverse
      line :: splitLines [] rest
    else splitLines (b :: done) rest

/-- Drop byte order marks in front. -/
def dropMarks (t : Text) : Text := t.dropWhile (· == '\ufeff')

/-- Read lines from line `number` on. -/
def readLines (path : String) (number : Nat) : List Bytes → Contents
  | [] => {}
  | line :: rest =>
    let tag := s!"{path}: line {number}: "
    match String.fromUTF8? ⟨line.toArray⟩ with
    | none => { broken := some (tag ++ Disk.Refusal.notText.message) }
    | some s =>
      let t := if number = 1 then dropMarks s.toList else s.toList
      let more := readLines path (number + 1) rest
      match IgnoreRule.ofLine t with
      | .ok none => more
      | .ok (some rule) => { more with rules := rule :: more.rules }
      | .error fault =>
        let shown := String.ofList (IgnoreRule.trimLine t)
        { more with reports := (tag ++ fault.messageFor shown) :: more.reports }

def ofBytes (path : String) (bytes : ByteArray) : Contents :=
  readLines path 1 (splitLines [] bytes.toList)

/-- What is wrong with the rules. Bytes that are no text alone are no fault of theirs. -/
def Contents.faults (c : Contents) : List String :=
  if c.reports.isEmpty then [] else c.reports ++ c.broken.toList

end Uplift.IgnoreFile

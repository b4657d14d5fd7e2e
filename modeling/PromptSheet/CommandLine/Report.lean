import PromptSheet.CommandLine.Answer

/-!
Reporting. An answer is shown, or goes into the one file that it is meant for; an answer that there
is not leaves all files as they are.
-/

namespace PromptSheet

/-- What a run of the program leaves behind, besides a file. -/
structure Report where
  code : UInt8 := 0
  stdout : String := ""
  stderr : String := ""
deriving DecidableEq, Repr

namespace Report

def ofLine (text : String) : String :=
  text ++ "\n"

def ofLines (texts : List String) : String :=
  String.join (texts.map ofLine)

def ofFailure (failure : Failure) : Report :=
  { code := 1, stderr := ofLine failure.message }

def misuse : Report :=
  { code := 2 }

def ofIssues (issues : List Issue) : Report :=
  { code := 1
    stdout := ofLines (issues.map Issue.message)
    stderr := ofLine (toString issues.length ++ " issue(s) found") }

end Report

/-- What is left to do with an answer: to report it, or to write a file and then to report that. -/
inductive Ending where
  | done (report : Report)
  | write (path content : String)

def Answer.ending : Answer → Ending
  | .document text none => .done { stdout := Report.ofLine text }
  | .document text (some path) => .write path (Report.ofLine text)
  | .lines texts => .done { stdout := Report.ofLines texts }
  | .issues found => .done (.ofIssues found)

def Ending.run (files : FileTree) : Ending → Report × FileTree
  | .done report => (report, files)
  | .write path content =>
    match files.write? path content with
    | some written => ({}, written)
    | none => (.ofFailure (.unwritable path), files)

namespace Invocation

def ending (files : FileTree) (invocation : Invocation) : Ending :=
  match invocation.answer files with
  | .error failure => .done (.ofFailure failure)
  | .ok answer => answer.ending

def run (files : FileTree) (invocation : Invocation) : Report × FileTree :=
  (invocation.ending files).run files

end Invocation

def CommandLine.run (files : FileTree) (environment : Option String) (arguments : List String) :
    Report × FileTree :=
  match read? environment arguments with
  | none => (.misuse, files)
  | some invocation => invocation.run files

end PromptSheet

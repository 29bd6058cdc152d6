import CommandGrammar.Help.Clean
import CommandGrammar.Help.Desk
import CommandGrammar.Text.Decimal
import CommandGrammar.Text.Utf8

/-!
# Pages from running programs

The help page of a program is what it writes when it is called with `--help`: its results, or its
messages if its results are blank, however it ends. The manual page is what the manual viewer
writes about it. Programs are called for plain text, without colours, windows and pagers. One that
takes too long has no page, nor has one whose page is blank.

What programs do is no part of this library: a `Runner` tells it.
-/

namespace CommandGrammar

/-- What a program that has ended leaves behind. -/
structure Outcome where
  results : List UInt8
  messages : List UInt8
  /-- The time from its start to its end. -/
  elapsed : Duration
deriving DecidableEq, Repr

/-- What becomes of a program called by its name with some arguments, while some variables are set;
nothing if it cannot be started or never ends. -/
abbrev Runner := List (Text × Text) → Text → List Text → Option Outcome

/-- How programs are asked for their pages. -/
structure ProgramLimits where
  /-- The time after which a program has taken too long. -/
  timeout : Duration
  /-- The columns of a manual page. -/
  manualWidth : Nat
deriving DecidableEq, Repr

namespace ProgramLimits

/-- The variables that keep programs from using colours, windows and pagers. -/
def plainBindings : List (Text × Text) :=
  [("DISPLAY", ""), ("WAYLAND_DISPLAY", ""), ("TERM", "dumb"), ("NO_COLOR", "1"),
    ("PAGER", "cat"), ("MANPAGER", "cat"), ("GIT_PAGER", "cat")].map
      fun (name, value) => (name.toList, value.toList)

/-- What a program leaves behind in time. -/
def call (limits : ProgramLimits) (run : Runner) (more : List (Text × Text)) (name : Text)
    (arguments : List Text) : Option Outcome :=
  (run (plainBindings ++ more) name arguments).filter fun o => decide (o.elapsed < limits.timeout)

/-- The page that some bytes are, unless it is blank. -/
def page? (bytes : List UInt8) : Option Text :=
  let page := Page.clean (Utf8.decodeLossy bytes)
  if Text.isAllBlank page then none else some page

def helpPage (limits : ProgramLimits) (run : Runner) (program : Text) : Option Text :=
  (limits.call run [] program ["--help".toList]).bind fun o =>
    page? (if Text.isAllBlank (Utf8.decodeLossy o.results) then o.messages else o.results)

def manualPage (limits : ProgramLimits) (run : Runner) (program : Text) : Option Text :=
  (limits.call run [("MANWIDTH".toList, Decimal.write limits.manualWidth)] "man".toList
    [program]).bind fun o => page? o.results

def pages (limits : ProgramLimits) (run : Runner) : Pages
  | .help, program => limits.helpPage run program
  | .manual, program => limits.manualPage run program

end ProgramLimits

end CommandGrammar

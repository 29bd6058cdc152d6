import CommandGrammar.Cache.Basic
import CommandGrammar.Help.Entry

/-!
# Where pages come from

A desk hands out the help page and the manual page of a program. The pages themselves are a fixed
function of program and kind; a desk may keep what it was handed, also that there was no page, and
then asks again only when its copy has expired. It remembers every request that went past its
copies.

A request fails only if a copy would have to be kept past the last instant of the clock.
-/

namespace CommandGrammar

/-- The kinds of pages about a program. -/
inductive PageKind
  /-- What the program prints about itself. -/
  | help
  /-- The rendered manual page. -/
  | manual
deriving DecidableEq, Repr

/-- What there is to read about programs. -/
abbrev Pages := PageKind → Text → Option Text

/-- Copies of pages and of their absence. -/
structure PageCopies where
  /-- How long a copy is kept. -/
  lifetime : Duration
  copies : Cache (Text × PageKind) (Option Text)

/-- A source of pages. -/
structure HelpDesk where
  pages : Pages
  kept : Option PageCopies := none
  /-- The requests that reached the pages, in their order. -/
  asked : List (PageKind × Text) := []

namespace HelpDesk

/-- A page as it is, the request remembered. -/
def fetch (kind : PageKind) (program : Text) (d : HelpDesk) : Option Text × HelpDesk :=
  (d.pages kind program, { d with asked := d.asked ++ [(kind, program)] })

/-- A page, from its copy if there is one. -/
def ask (now : Instant) (kind : PageKind) (program : Text) (d : HelpDesk) :
    Option (Option Text × HelpDesk) :=
  match d.kept with
  | none => some (d.fetch kind program)
  | some k =>
    let fetched (d : HelpDesk) := some (d.fetch kind program)
    (k.copies.getOrPut? now (program, kind) k.lifetime fetched d).map fun (page, copies, d) =>
      (page, { d with kept := some { k with copies := copies } })

def entriesOf (options : Page.ScanOptions) (page : Option Text) : List OptionEntry :=
  (page.map (Page.entries options)).getD []

def programEntries (now : Instant) (options : Page.ScanOptions) (useManual : Bool)
    (program : Text) (d : HelpDesk) : Option (List OptionEntry × HelpDesk) := do
  let (page, d) ← d.ask now .help program
  let entries := entriesOf options page
  if !entries.isEmpty || !useManual then some (entries, d)
  else
    let (page, d) ← d.ask now .manual program
    some (entriesOf options page, d)

end HelpDesk

end CommandGrammar

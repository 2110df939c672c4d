import MarkdownSpans.Reader.Lead
import MarkdownSpans.Reader.Link
import MarkdownSpans.Reader.Token

/-!
# The layout of a source

The blocks of a source as its lines tell them: containers and leaves with the stretch of the source
they take, and the text of paragraphs and headings as tokens. A `Layout` is built from the top of
the source to its end; it holds the containers that are still open.
-/

namespace MarkdownSpans

/-- A kind of container as its lines show it. -/
inductive Shell where
  | quote
  /-- A list, with the mark of its items and the number of the first. -/
  | list (isTight : Bool) (mark : Char) (first : Nat)
  | item (indent : Nat)
  deriving DecidableEq, Repr, Inhabited

/-- What the lines of a container start with. -/
def Shell.lead : Shell → Lead
  | quote => .quote
  | list .. => .list
  | item indent => .item indent

/-- A list made loose. -/
def Shell.loosen : Shell → Shell
  | list _ mark first => list false mark first
  | shell => shell

/-- A part of a block of code or HTML: a stretch of the source, or white space left of a tab. -/
inductive RawPart where
  | stretch (extent : Extent)
  | columns (count : Nat) (pos : Nat)
  deriving DecidableEq, Repr, Inhabited

/-- The text of a paragraph or heading: its tokens, and what its lines start with. -/
structure TokenText where
  tokens : List Token
  leads : List Lead

/-- A block of a source. -/
inductive SourceBlock where
  | container (shell : Shell) (extent : Extent) (children : List SourceBlock)
  /-- A paragraph; one in a tight list shows only its text. -/
  | paragraph (isTight : Bool) (extent : Extent) (text : TokenText)
  | heading (level : Nat) (extent : Extent) (text : TokenText)
  | code (info : Option String) (extent : Extent) (parts : List RawPart)
  | html (extent : Extent) (parts : List RawPart)
  | rule (extent : Extent)
  deriving Inhabited

/-- A paragraph of an item whose list is tight. -/
def SourceBlock.tighten : SourceBlock → SourceBlock
  | paragraph _ extent text => paragraph true extent text
  | block => block

/-- An item of a list that is tight. -/
def SourceBlock.tightenItem : SourceBlock → SourceBlock
  | container shell extent children => container shell extent (children.map tighten)
  | block => block

/-- A container that is open, with its blocks so far, the latest first. -/
structure OpenShell where
  shell : Shell
  start : Nat
  reversed : List SourceBlock := []

/-- A container that ends at a position. The paragraphs of a tight list are made tight. -/
def OpenShell.close (stop : Nat) (o : OpenShell) : SourceBlock :=
  let children := o.reversed.reverse
  .container o.shell ⟨o.start, stop⟩ <|
    match o.shell with
    | .list true _ _ => children.map SourceBlock.tightenItem
    | _ => children

/-- The blocks of a source up to some line. -/
structure Layout where
  /-- The blocks outside of all open containers, the latest first. -/
  reversed : List SourceBlock := []
  /-- The open containers, innermost first. -/
  shells : List OpenShell := []
  /-- Whether the last line was blank. -/
  afterBlank : Bool := false
  /-- The end of the line of an item that has no content yet. -/
  emptyItem : Option Nat := none
  /-- The definitions of links so far, the latest first. -/
  targets : List LinkTarget := []

namespace Layout

/-- What the lines of the open containers start with, from the outermost on. -/
def leads (l : Layout) : List Lead := l.shells.reverse.map (·.shell.lead)

/-- Add a block to the innermost open container. -/
def push (block : SourceBlock) (l : Layout) : Layout :=
  match l.shells with
  | [] => { l with reversed := block :: l.reversed }
  | o :: rest => { l with shells := { o with reversed := block :: o.reversed } :: rest }

/-- Open a container. -/
def enter (shell : Shell) (start : Nat) (l : Layout) : Layout :=
  { l with shells := { shell, start } :: l.shells }

/-- Close the innermost open container at a position. -/
def leave (stop : Nat) (l : Layout) : Layout :=
  match l.shells with
  | [] => l
  | o :: rest =>
    let closed := push (o.close stop) { l with shells := rest }
    match o.shell with
    | .list true _ _ => { closed with emptyItem := none }
    | _ => closed

/-- Close open containers at a position until so many are left. -/
def leaveTo (count stop : Nat) (l : Layout) : Layout :=
  (l.shells.drop count).foldl (fun l _ => l.leave stop) l

/-- The kind of the innermost open container. -/
def innermost? (l : Layout) : Option Shell := l.shells.head?.map (·.shell)

/-- Note a definition of a link. The first of a label counts. -/
def define (target : LinkTarget) (l : Layout) : Layout :=
  if l.targets.any (·.label == target.label) then l else { l with targets := target :: l.targets }

/-- Change the kind of the open container at a depth, the innermost having depth zero. -/
def modifyShell (depth : Nat) (change : Shell → Shell) (l : Layout) : Layout :=
  { l with shells := l.shells.modify depth fun o => { o with shell := change o.shell } }

/-- Note a blank line. An item that starts with one has no content, and the white space before
what follows is not its own; a blank line of a quote is no blank line of what is around it. -/
def passBlank (l : Layout) : Layout :=
  match l.innermost?, l.emptyItem with
  | some .quote, _ => l
  | some (.item _), some _ => { l.modifyShell 0 (fun _ => .item 0) with afterBlank := true }
  | _, _ => { l with afterBlank := true }

/-- Close an item that has no content if a blank line follows it. -/
def closeEmptyItem (l : Layout) : Layout :=
  let closed :=
    match l.emptyItem, l.afterBlank, l.innermost? with
    | some stop, true, some (.item _) => l.leave stop
    | _, _, _ => l
  { closed with emptyItem := none }

/-- Close a list whose items are all closed, before a block that starts at a position and is not one
of its items. A blank line between two blocks of an item makes the list of the item loose. -/
def closeList (start : Nat) (l : Layout) : Layout :=
  let l := l.closeEmptyItem
  let l :=
    match l.innermost? with
    | some (.list ..) => l.leave start
    | _ => l
  if l.afterBlank then { l.modifyShell 1 Shell.loosen with afterBlank := false } else l

/-- Open a list for an item that starts at a position, unless the item continues an open list. A
blank line between two items makes their list loose. -/
def openList (start : Nat) (mark : Char) (first : Nat) (l : Layout) : Layout :=
  let l := l.closeEmptyItem
  let opened (l : Layout) : Layout :=
    { l.enter (.list true mark first) start with afterBlank := false }
  match l.innermost? with
  | some (.list _ existing _) =>
    if existing = mark then
      if l.afterBlank then { l.modifyShell 0 Shell.loosen with afterBlank := false } else l
    else
      opened (l.closeList start)
  | some _ => opened (l.closeList start)
  | none => opened l

end Layout

end MarkdownSpans

/-! Browsing panels on a screen: a page of neighbouring panels is visible, and keys move it by one
panel or end the view. -/

namespace TracePlot.Screen

def panelsPerPage : Nat := 3

/-- The panels from `start` up to `stop`, which is outside. -/
structure Page where
  start : Nat
  stop : Nat
  deriving Repr, DecidableEq, Inhabited

/-- The page that starts at `offset`, or at the last place where it is full. -/
def page (offset count : Nat) : Page :=
  let start := min offset (count - panelsPerPage)
  ⟨start, min (start + panelsPerPage) count⟩

def Page.panels {α : Type} (p : Page) (all : List α) : List α :=
  (all.take p.stop).drop p.start

inductive Key where
  | char (c : Char)
  | down
  | up
  | escape
  deriving Repr, DecidableEq, Inhabited

inductive Action where
  | quit
  | next
  | previous
  deriving Repr, DecidableEq, Inhabited

/-- What a key is for, if it is for anything. -/
def Key.action? : Key → Option Action
  | .char 'q' => some .quit
  | .escape => some .quit
  | .char 'j' => some .next
  | .down => some .next
  | .char 'k' => some .previous
  | .up => some .previous
  | .char _ => none

inductive Event where
  | press (key : Key)
  | release (key : Key)
  /-- Anything else, also that nothing happens for a while. -/
  | other
  deriving Repr, DecidableEq, Inhabited

def Event.action? : Event → Option Action
  | .press key => key.action?
  | .release _ => none
  | .other => none

/-- The offset after an event, or `none` when the view ends. -/
def react? (count offset : Nat) (e : Event) : Option Nat :=
  match e.action? with
  | none => some offset
  | some .quit => none
  | some .next => some (page (offset + 1) count).start
  | some .previous => some ((page offset count).start - 1)

/-- The pages drawn while events arrive, one before each event, and the events left unread. The
view goes on if the events run out. -/
def browseFrom (count offset : Nat) : List Event → List Page × List Event
  | [] => ([page offset count], [])
  | e :: rest =>
    match react? count offset e with
    | none => ([page offset count], rest)
    | some next =>
      let (pages, unread) := browseFrom count next rest
      (page offset count :: pages, unread)

def browse (count : Nat) (events : List Event) : List Page × List Event :=
  browseFrom count 0 events

end TracePlot.Screen

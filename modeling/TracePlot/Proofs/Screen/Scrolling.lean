import Mathlib.Algebra.Order.Group.Int
import Mathlib.Data.List.TakeWhile
import TracePlot.Screen.Viewer

/-! Scrolling through panels. The page that is drawn stands where the presses lead on a walk that
is kept between the first and the last full page after every step. -/

namespace TracePlot.Screen

/-- How far an event moves the page, as long as there are panels on that side. -/
def Event.move : Event → Int
  | .press .down => 1
  | .press (.char 'j') => 1
  | .press .up => -1
  | .press (.char 'k') => -1
  | _ => 0

def Event.quits : Event → Bool
  | .press .escape => true
  | .press (.char 'q') => true
  | _ => false

/-- The start of the last page. -/
def lastStart (count : Nat) : Int :=
  max 0 (count - 3)

def walkFrom (count : Nat) (position : Int) (events : List Event) : Int :=
  events.foldl (fun position e => max 0 (min (position + e.move) (lastStart count))) position

def walk (count : Nat) (events : List Event) : Int :=
  walkFrom count 0 events

/-- The page that is seen after some events. -/
def lastPage? (count : Nat) (events : List Event) : Option Page :=
  (browse count events).1.getLast?

variable {count offset next : Nat} {e : Event} {events more : List Event} {position : Int}

theorem page_of_le (h : offset ≤ count - panelsPerPage) :
    page offset count = ⟨offset, offset + min 3 count⟩ := by
  simp only [page, panelsPerPage, Page.mk.injEq] at h ⊢
  omega

theorem Event.action?_eq (e : Event) :
    e.action? =
      if e.quits then some .quit
      else if e.move = 1 then some .next
      else if e.move = -1 then some .previous
      else none := by
  cases e with
  | press key =>
    cases key with
    | char c =>
      by_cases hq : c = 'q'
      · subst hq
        rfl
      by_cases hj : c = 'j'
      · subst hj
        rfl
      by_cases hk : c = 'k'
      · subst hk
        rfl
      simp [action?, Key.action?, quits, move, hq, hj, hk]
    | _ => rfl
  | _ => rfl

theorem Event.move_cases (e : Event) : e.move = 0 ∨ e.move = 1 ∨ e.move = -1 := by
  unfold move
  split <;> simp

theorem react?_eq_none_iff : react? count offset e = none ↔ e.quits = true := by
  unfold react?
  rw [Event.action?_eq]
  split_ifs <;> simp_all

theorem quits_of_react? (h : react? count offset e = some next) : e.quits = false := by
  rw [← Bool.not_eq_true, ← react?_eq_none_iff, h]
  simp

/-- An offset at which a page is full moves as the walk does, and so stays one. -/
theorem react?_of_le (h : offset ≤ count - panelsPerPage)
    (hnext : react? count offset e = some next) :
    next ≤ count - panelsPerPage ∧
      (next : Int) = max 0 (min (offset + e.move) (lastStart count)) := by
  have hmove := e.move_cases
  unfold react? at hnext
  rw [Event.action?_eq] at hnext
  simp only [panelsPerPage, lastStart] at h ⊢
  split_ifs at hnext with hquits hdown hup <;>
    simp only [Option.some.injEq, page, panelsPerPage] at hnext
  all_goals omega

/-- A page is drawn first and after each event before the one that ends the view. -/
theorem length_and_unread_browseFrom (count offset : Nat) (events : List Event) :
    (browseFrom count offset events).1.length =
        (events.takeWhile fun e => !e.quits).length + 1 ∧
      (browseFrom count offset events).2 = (events.dropWhile fun e => !e.quits).tail := by
  induction events generalizing offset with
  | nil => exact ⟨rfl, rfl⟩
  | cons e events ih =>
    rw [browseFrom]
    cases hnext : react? count offset e with
    | none => simp [react?_eq_none_iff.mp hnext]
    | some next =>
      have hgoes := quits_of_react? hnext
      simp [hgoes, ih]

/-- What a page drawn for `count` panels looks like when it starts at a position of the walk. -/
structure Page.FullAt (p : Page) (count : Nat) (position : Int) : Prop where
  start : (p.start : Int) = position
  stop : p.stop = p.start + min 3 count
  inside : p.stop ≤ count

theorem page_fullAt (h : offset ≤ count - panelsPerPage) :
    (page offset count).FullAt count offset := by
  rw [page_of_le h]
  refine ⟨rfl, rfl, ?_⟩
  simp only [panelsPerPage] at h ⊢
  omega

theorem fullAt_of_browseFrom (h : offset ≤ count - panelsPerPage) {k : Nat} {p : Page}
    (hp : (browseFrom count offset events).1[k]? = some p) :
    p.FullAt count (walkFrom count offset (events.take k)) := by
  induction events generalizing offset k with
  | nil =>
    have hfirst : page offset count = p := by
      cases k <;> simp_all [browseFrom]
    rw [← hfirst, List.take_nil]
    exact page_fullAt h
  | cons e events ih =>
    rw [browseFrom] at hp
    cases hnext : react? count offset e with
    | none =>
      have hfirst : k = 0 ∧ page offset count = p := by
        cases k <;> simp_all
      rw [hfirst.1, ← hfirst.2]
      exact page_fullAt h
    | some next =>
      obtain ⟨hle, hmoved⟩ := react?_of_le h hnext
      simp only [hnext] at hp
      cases k with
      | zero =>
        obtain rfl : page offset count = p := by simpa using hp
        exact page_fullAt h
      | succ k =>
        have hrest := ih hle (List.getElem?_cons_succ.symm.trans hp)
        rwa [List.take_succ_cons, walkFrom, List.foldl_cons, ← hmoved]

theorem walkFrom_append :
    walkFrom count position (events ++ more) =
      walkFrom count (walkFrom count position events) more :=
  List.foldl_append

theorem walkFrom_bounds (hlow : 0 ≤ position) (hhigh : position ≤ lastStart count) :
    0 ≤ walkFrom count position events ∧ walkFrom count position events ≤ lastStart count := by
  induction events generalizing position with
  | nil => exact ⟨hlow, hhigh⟩
  | cons e events ih =>
    rw [walkFrom, List.foldl_cons]
    exact ih (le_max_left _ _) (max_le (hlow.trans hhigh) (min_le_right _ _))

theorem walk_bounds (count : Nat) (events : List Event) :
    0 ≤ walk count events ∧ walk count events ≤ lastStart count :=
  walkFrom_bounds le_rfl (le_max_left _ _)

/-- Steps to one side are clamped once. -/
theorem walkFrom_replicate (hlow : 0 ≤ position) (hhigh : position ≤ lastStart count) (n : Nat) :
    walkFrom count position (List.replicate n e) =
      max 0 (min (position + n * e.move) (lastStart count)) := by
  induction n generalizing position with
  | zero =>
    simp only [List.replicate_zero, walkFrom, List.foldl_nil]
    omega
  | succ n ih =>
    rw [List.replicate_succ, walkFrom, List.foldl_cons]
    have hrest := ih (le_max_left 0 (min (position + e.move) (lastStart count)))
      (max_le (hlow.trans hhigh) (min_le_right _ _))
    rw [walkFrom] at hrest
    rw [hrest]
    rcases e.move_cases with hmove | hmove | hmove <;> rw [hmove] <;> push_cast <;> omega

theorem exists_lastPage (count : Nat) (h : ∀ e ∈ events, e.quits = false) :
    ∃ p, lastPage? count events = some p ∧ p.FullAt count (walk count events) := by
  have hlength : (browse count events).1.length = events.length + 1 := by
    rw [browse, (length_and_unread_browseFrom count 0 events).1,
      List.takeWhile_eq_self_iff.mpr (by simpa using h)]
  have hlast : events.length < (browse count events).1.length := by omega
  refine ⟨(browse count events).1[events.length], ?_, ?_⟩
  · rw [lastPage?, List.getLast?_eq_getElem?, hlength, Nat.add_sub_cancel,
      List.getElem?_eq_getElem hlast]
  · have hfull := fullAt_of_browseFrom (Nat.zero_le _) (List.getElem?_eq_getElem hlast)
    rwa [List.take_length] at hfull

theorem Page.FullAt.eq {p : Page} {start : Nat} (h : p.FullAt count position)
    (hstart : position = start) : p = ⟨start, start + min 3 count⟩ := by
  obtain ⟨hposition, hstop, -⟩ := h
  obtain ⟨first, stop⟩ := p
  simp only [Page.mk.injEq] at hposition hstop ⊢
  omega

theorem Page.FullAt.length_panels {α : Type} {p : Page} {panels : List α}
    (h : p.FullAt count position) (hcount : panels.length = count) :
    (p.panels panels).length = min 3 count := by
  obtain ⟨-, hstop, hinside⟩ := h
  simp only [Page.panels, List.length_drop, List.length_take]
  omega

theorem quits_of_move_ne_zero (h : e.move ≠ 0) : e.quits = false := by
  unfold Event.quits
  split
  · exact absurd rfl h
  · exact absurd rfl h
  · rfl

theorem quits_append_replicate (h : ∀ e ∈ events, e.quits = false) (hmove : e.move ≠ 0) (n : Nat) :
    ∀ e' ∈ events ++ List.replicate n e, e'.quits = false := by
  intro e' he'
  rcases List.mem_append.mp he' with he' | he'
  · exact h e' he'
  · rw [List.eq_of_mem_replicate he']
    exact quits_of_move_ne_zero hmove

/-- A press moves the page at once. -/
theorem lastPage?_append (h : ∀ e ∈ events, e.quits = false) (hmove : e.move ≠ 0) {start : Nat}
    (hstart : max 0 (min (walk count events + e.move) (lastStart count)) = start) :
    lastPage? count (events ++ [e]) = some ⟨start, start + min 3 count⟩ := by
  obtain ⟨p, hp, hfull⟩ := exists_lastPage count (quits_append_replicate h hmove 1)
  have hwalk : walk count (events ++ [e]) = start := by
    rw [walk, walkFrom_append, ← hstart]
    rfl
  exact hp.trans (congrArg some (hfull.eq hwalk))

theorem walk_append_replicate (count : Nat) (events : List Event) (e : Event) (n : Nat) :
    walk count (events ++ List.replicate n e) =
      max 0 (min (walk count events + n * e.move) (lastStart count)) := by
  obtain ⟨hlow, hhigh⟩ := walk_bounds count events
  rw [walk, walkFrom_append, ← walk, walkFrom_replicate hlow hhigh]

theorem walk_past_last (events : List Event) (hmove : e.move = 1) {n : Nat} (hn : count - 3 ≤ n) :
    walk count (events ++ List.replicate n e) = lastStart count := by
  obtain ⟨hlow, hhigh⟩ := walk_bounds count events
  rw [walk_append_replicate, hmove]
  unfold lastStart at hhigh ⊢
  omega

theorem walk_before_first (events : List Event) (hmove : e.move = -1) {n : Nat}
    (hn : count - 3 ≤ n) : walk count (events ++ List.replicate n e) = 0 := by
  obtain ⟨hlow, hhigh⟩ := walk_bounds count events
  rw [walk_append_replicate, hmove]
  unfold lastStart at hhigh ⊢
  omega

theorem lastPage?_turning {down up : Event} (h : ∀ e ∈ events, e.quits = false)
    (hdown : down.move = 1) (hup : up.move = -1) (hcount : 3 < count) {n : Nat}
    (hn : count - 3 ≤ n) :
    lastPage? count (events ++ List.replicate n down ++ [up]) = some ⟨count - 4, count - 1⟩ ∧
      lastPage? count (events ++ List.replicate n up ++ [down]) = some ⟨1, 4⟩ := by
  have hdownmoves : down.move ≠ 0 := by simp [hdown]
  have hupmoves : up.move ≠ 0 := by simp [hup]
  constructor
  · have hpage : (⟨count - 4, count - 1⟩ : Page) = ⟨count - 4, count - 4 + min 3 count⟩ := by
      simp only [Page.mk.injEq, true_and]
      omega
    rw [hpage]
    refine lastPage?_append (quits_append_replicate h hdownmoves n) hupmoves ?_
    rw [walk_past_last events hdown hn, hup, lastStart]
    omega
  · have hpage : (⟨1, 4⟩ : Page) = ⟨1, 1 + min 3 count⟩ := by
      simp only [Page.mk.injEq, true_and]
      omega
    rw [hpage]
    refine lastPage?_append (quits_append_replicate h hupmoves n) hdownmoves ?_
    rw [walk_before_first events hup hn, hdown, lastStart]
    omega

theorem exists_presses_to (h : ∀ e ∈ events, e.quits = false) {j : Nat} (hj : j < count) :
    ∃ presses : List Event, (∀ e ∈ presses, e.quits = false) ∧
      ∃ p, lastPage? count (events ++ presses) = some p ∧ p.start ≤ j ∧ j < p.stop := by
  obtain ⟨hlow, hhigh⟩ := walk_bounds count events
  -- Go down if the panel, or else the last page, is ahead, and up otherwise.
  let target : Int := min j (lastStart count)
  let press : Event := if walk count events ≤ target then .press .down else .press .up
  let n : Nat := (target - walk count events).natAbs
  have hmove : press.move = if walk count events ≤ target then 1 else -1 := by
    unfold press
    split <;> rfl
  have hne : press.move ≠ 0 := by
    rw [hmove]
    split <;> decide
  refine ⟨List.replicate n press, fun e he => ?_, ?_⟩
  · rw [List.eq_of_mem_replicate he]
    exact quits_of_move_ne_zero hne
  · obtain ⟨p, hp, hfull⟩ := exists_lastPage count (quits_append_replicate h hne n)
    have hposition : (p.start : Int) = target := by
      rw [hfull.start, walk_append_replicate, hmove]
      unfold n
      split_ifs <;> omega
    have hstop := hfull.stop
    refine ⟨p, hp, ?_, ?_⟩
    · omega
    · unfold target lastStart at hposition
      omega

/-- A page is drawn before each event up to the one that ends the view, it shows as many panels as
there is room for, and it stands where the walk is. No press past an end counts, and every panel
can be reached from everywhere. -/
theorem pages_follow_clamped_walk (count : Nat) (events : List Event) :
    (browse count events).1.length = (events.takeWhile fun e => !e.quits).length + 1 ∧
    (browse count events).2 = (events.dropWhile fun e => !e.quits).tail ∧
    (∀ (k : Nat) (p : Page), (browse count events).1[k]? = some p →
      p.FullAt count (walk count (events.take k)) ∧
        ∀ {α : Type} (panels : List α), panels.length = count →
          (p.panels panels).length = min 3 count) ∧
    ((∀ e ∈ events, e.quits = false) →
      (∀ down up : Event, down.move = 1 → up.move = -1 → 3 < count → ∀ n, count - 3 ≤ n →
        lastPage? count (events ++ List.replicate n down ++ [up]) =
            some ⟨count - 4, count - 1⟩ ∧
          lastPage? count (events ++ List.replicate n up ++ [down]) = some ⟨1, 4⟩) ∧
      ∀ j < count, ∃ presses : List Event, (∀ e ∈ presses, e.quits = false) ∧
        ∃ p, lastPage? count (events ++ presses) = some p ∧ p.start ≤ j ∧ j < p.stop) := by
  obtain ⟨hlength, hunread⟩ := length_and_unread_browseFrom count 0 events
  refine ⟨hlength, hunread, fun k p hp => ?_,
    fun h => ⟨fun down up hdown hup hcount n hn => ?_, fun j => exists_presses_to h⟩⟩
  · have hfull := fullAt_of_browseFrom (Nat.zero_le _) hp
    exact ⟨hfull, fun panels hlength => hfull.length_panels hlength⟩
  · exact lastPage?_turning h hdown hup hcount hn

/-- Two presses too many at the end of five panels, a key let go, a press back, and the end. -/
def pastTheEnd : List Event :=
  [.press .down, .press (.char 'j'), .press .down, .press .down, .release (.char 'q'), .press .up,
    .press .escape, .press .down]

theorem pastTheEnd_turns_at_once :
    (browse 5 pastTheEnd).1[6]? = some ⟨1, 4⟩ ∧ walk 5 (pastTheEnd.take 6) = 1 ∧
      (⟨1, 4⟩ : Page).FullAt 5 (walk 5 (pastTheEnd.take 6)) ∧
      lastPage? 5 (pastTheEnd.take 6 ++ List.replicate 9 (.press .down) ++ [.press (.char 'k')]) =
        some ⟨1, 4⟩ ∧
      ∃ presses p, lastPage? 5 (pastTheEnd.take 6 ++ presses) = some p ∧ p.start ≤ 4 ∧
        4 < p.stop := by
  have hpage : (browse 5 pastTheEnd).1[6]? = some ⟨1, 4⟩ := by decide
  have hgoes : ∀ e ∈ pastTheEnd.take 6, e.quits = false := by decide
  obtain ⟨-, -, hpages, -⟩ := pages_follow_clamped_walk 5 pastTheEnd
  obtain ⟨-, -, -, hends⟩ := pages_follow_clamped_walk 5 (pastTheEnd.take 6)
  obtain ⟨hback, hreach⟩ := hends hgoes
  obtain ⟨presses, -, hlast⟩ := hreach 4 (by decide)
  exact ⟨hpage, by decide, (hpages 6 _ hpage).1,
    (hback (.press .down) (.press (.char 'k')) rfl rfl (by decide) 9 (by decide)).1,
    presses, hlast⟩

end TracePlot.Screen

import FlutterEngine.Lib.Run

/-!
# The browser history

`lib/web_ui/lib/src/engine/history.dart`: a Flutter app keeps an entry of its own on top of the
entry it was started from, the origin. The back button of the browser then leads to the origin,
where the app notices it. An address typed by the user leads to a new entry on top, which the app
leaves again by going back.

The machine `step` has the actions of the user and of the app, and the event loop (`tick`), in which
the browser moves and fires `popstate`. `path` is how the location strategy reads the path from an
address.
-/

namespace WebUi

/-- The state of a history entry, as far as `_isOriginEntry` and `_isFlutterEntry` look at it. -/
structure EntryState where
  isOrigin : Bool
  isFlutter : Bool
deriving DecidableEq, Repr

namespace EntryState

/-- `_originState` -/
def origin : EntryState := ⟨true, false⟩

/-- `_flutterState` -/
def flutter : EntryState := ⟨false, true⟩

/-- The state of an entry that the browser has created. -/
def null : EntryState := ⟨false, false⟩

end EntryState

structure HistoryEntry where
  state : EntryState
  url : String
deriving DecidableEq, Repr

/-- The entries of the browser: those one can go back to, the nearest one first, the current one,
and those one can go forward to. -/
structure History where
  back : List HistoryEntry
  current : HistoryEntry
  forward : List HistoryEntry
deriving DecidableEq, Repr

namespace History

/-- `pushState` removes the entries after the current one. -/
def pushState (h : History) (state : EntryState) (url : String) : History :=
  ⟨h.current :: h.back, ⟨state, url⟩, []⟩

def replaceState (h : History) (state : EntryState) (url : String) : History :=
  { h with current := ⟨state, url⟩ }

/-- Go back by one entry, if there is one. -/
def goBack (h : History) : Option History :=
  match h.back with
  | [] => none
  | entry :: back => some ⟨back, entry, h.current :: h.forward⟩

/-- Go forward by one entry, if there is one. -/
def goForward (h : History) : Option History :=
  match h.forward with
  | [] => none
  | entry :: forward => some ⟨h.current :: h.back, entry, forward⟩

end History

/-- What the browser does in the event loop, before it fires `popstate`. -/
inductive HistoryEvent where
  | back
  | forward
  | type (url : String)
deriving DecidableEq, Repr

def HistoryEvent.apply (h : History) : HistoryEvent → Option History
  | .back => h.goBack
  | .forward => h.goForward
  | .type url => some (h.pushState .null url)

/-- The platform messages on `flutter/navigation`. -/
inductive NavigationMessage where
  | popRoute
  | pushRoute (path : String)
deriving DecidableEq, Repr

/-- `BrowserHistory` with its location strategy. -/
structure BrowserHistory where
  history : History
  /-- `_userProvidedRouteName` -/
  userProvidedRouteName : Option String
  /-- What the browser is about to do. -/
  pending : List HistoryEvent
  /-- The messages that have been sent. -/
  messages : List NavigationMessage
  /-- The messages that the actions of the user call for. -/
  requests : List NavigationMessage
deriving DecidableEq, Repr

namespace BrowserHistory

variable (path : String → String)

variable (s : BrowserHistory)

def currentPath : String := path s.history.current.url

/-- `_setupFlutterEntry` -/
def setupFlutterEntry (replace : Bool) (name : Option String) : BrowserHistory :=
  let name := name.getD (s.currentPath path)
  if replace then { s with history := s.history.replaceState .flutter name }
  else { s with history := s.history.pushState .flutter name }

/-- `_setupStrategy`, on the entries the browser has. -/
def setupStrategy (history : History) : BrowserHistory :=
  let s : BrowserHistory := ⟨history, none, [], [], []⟩
  let name := s.currentPath path
  if history.current.state.isFlutter then s
  else
    -- `_setupOriginEntry`
    let s := { s with history := history.replaceState .origin "" }
    s.setupFlutterEntry path false (some name)

/-- `_popStateListener`; `none` if its assertion fails. -/
def popStateListener : Option BrowserHistory :=
  let state := s.history.current.state
  if state.isOrigin then
    -- the user has gone back: stay in the app, and let the framework pop a route
    let s := s.setupFlutterEntry path false none
    some { s with messages := s.messages ++ [.popRoute] }
  else if state.isFlutter then
    -- the app has gone back from an address of the user, which is reported now
    match s.userProvidedRouteName with
    | none => none
    | some newRouteName =>
      some { s with
        userProvidedRouteName := none
        messages := s.messages ++ [.pushRoute newRouteName] }
  else
    -- an entry of the user: remember its address and leave it
    some { s with
      userProvidedRouteName := some (s.currentPath path)
      pending := s.pending ++ [.back] }

inductive Action where
  /-- The user goes back. -/
  | back
  /-- The user goes forward. -/
  | forward
  /-- The user types an address. -/
  | type (url : String)
  | setRouteName (routeName : Option String)
  /-- The browser does what is pending and fires `popstate`. -/
  | tick
deriving DecidableEq, Repr

/-- One action, if it is possible and no assertion fails. The user and the app act when nothing is
pending. -/
def step : Action → Option BrowserHistory
  | .back =>
    if s.pending = [] then
      some { s with pending := [.back], requests := s.requests ++ [.popRoute] }
    else none
  | .forward =>
    match s.pending, s.history.forward with
    | [], entry :: _ =>
      some { s with
        pending := [.forward]
        requests := s.requests ++ [.pushRoute (path entry.url)] }
    | _, _ => none
  | .type url =>
    if s.pending = [] then
      some { s with pending := [.type url], requests := s.requests ++ [.pushRoute (path url)] }
    else none
  | .setRouteName routeName =>
    if s.pending = [] then some (s.setupFlutterEntry path true routeName) else none
  | .tick =>
    match s.pending with
    | [] => none
    | event :: pending => do
      let history ← event.apply s.history
      popStateListener path { s with history, pending }

end BrowserHistory

end WebUi

import FlutterEngine.WebUi.BrowserHistory

/-!
# The flutter entry stays on top of the origin

Whenever nothing is pending, the current entry is the flutter entry and the origin is the one below
(`Settled`), and every action of the user has led to one message. An address that was typed, or gone
forward to, takes two turns of the event loop: in the first one the app notices the entry and goes
back, in the second one it finds itself in the flutter entry again and sends the message.
-/

namespace WebUi.BrowserHistory

open Lib HistoryEvent

variable {path : String → String} {s t : BrowserHistory} {actions : List Action}
  {history : History}

def IsOrigin (entry : HistoryEntry) : Prop := entry.state.isOrigin = true

def IsFlutter (entry : HistoryEntry) : Prop :=
  entry.state.isOrigin = false ∧ entry.state.isFlutter = true

/-- An entry that is not one of the app's. -/
def IsForeign (entry : HistoryEntry) : Prop :=
  entry.state.isOrigin = false ∧ entry.state.isFlutter = false

/-- The current entry is a flutter entry directly above the origin, and whatever lies ahead has been
created by the user. -/
structure Settled (h : History) : Prop where
  flutter : IsFlutter h.current
  origin : ∃ origin rest, h.back = origin :: rest ∧ IsOrigin origin
  foreign : ∀ entry ∈ h.forward, IsForeign entry

/-- The current entry has been created by the user on top of the flutter entry. -/
structure Away (h : History) : Prop where
  current : IsForeign h.current
  flutter : ∃ flutter origin rest, h.back = flutter :: origin :: rest ∧ IsFlutter flutter ∧
    IsOrigin origin
  foreign : ∀ entry ∈ h.forward, IsForeign entry

variable {h : History}

/-- A flutter entry on top of the origin. -/
lemma Settled.pushState (horigin : IsOrigin h.current) (url : String) :
    Settled (h.pushState .flutter url) :=
  ⟨⟨rfl, rfl⟩, ⟨h.current, h.back, rfl, horigin⟩, nofun⟩

/-- A flutter entry is replaced. -/
lemma Settled.replaceState (hsettled : Settled h) (url : String) :
    Settled (h.replaceState .flutter url) :=
  ⟨⟨rfl, rfl⟩, hsettled.origin, hsettled.foreign⟩

/-- An entry of the user on top of the flutter entry. -/
theorem Settled.away (hsettled : Settled h) {entry : HistoryEntry} {forward : List HistoryEntry}
    (hentry : IsForeign entry) (hforward : ∀ entry ∈ forward, IsForeign entry) :
    Away ⟨h.current :: h.back, entry, forward⟩ := by
  obtain ⟨origin, rest, hback, horigin⟩ := hsettled.origin
  exact ⟨hentry, ⟨h.current, origin, rest, by rw [hback], hsettled.flutter, horigin⟩, hforward⟩

/-- What the browser is about to do, and the messages that are missing. -/
inductive Invariant (path : String → String) (s : BrowserHistory) : Prop
  | idle : Settled s.history → s.pending = [] → s.requests = s.messages → Invariant path s
  | back : Settled s.history → s.pending = [.back] → s.requests = s.messages ++ [.popRoute] →
      Invariant path s
  | forward (entry : HistoryEntry) (rest : List HistoryEntry) : Settled s.history →
      s.history.forward = entry :: rest → s.pending = [.forward] →
      s.requests = s.messages ++ [.pushRoute (path entry.url)] → Invariant path s
  | type (url : String) : Settled s.history → s.pending = [.type url] →
      s.requests = s.messages ++ [.pushRoute (path url)] → Invariant path s
  | away : Away s.history → s.pending = [.back] →
      s.userProvidedRouteName = some (path s.history.current.url) →
      s.requests = s.messages ++ [.pushRoute (path s.history.current.url)] → Invariant path s

/-- What a turn of the event loop does. -/
lemma tick_eq (path : String → String) {event : HistoryEvent} (hpending : s.pending = [event])
    (happly : event.apply s.history = some history) :
    step path s .tick = popStateListener path { s with history, pending := [] } := by
  simp only [step, hpending, happly, Option.bind_eq_bind, Option.bind_some]

/-- Back at the origin, a pop is reported. -/
lemma popStateListener_origin (path : String → String) (h : IsOrigin s.history.current)
    (hpending : s.pending = [])
    (hrequests : s.requests = s.messages ++ [.popRoute]) :
    ∃ t, popStateListener path s = some t ∧ t.Invariant path ∧ t.pending = [] := by
  have horigin : s.history.current.state.isOrigin = true := h
  rw [popStateListener, if_pos horigin]
  exact ⟨_, rfl, .idle (.pushState h _) hpending hrequests, hpending⟩

/-- When nothing is pending, all is settled. -/
lemma Invariant.settled (h : s.Invariant path) (hpending : s.pending = []) :
    Settled s.history ∧ s.requests = s.messages := by
  cases h with
  | idle hsettled _ hrequests => exact ⟨hsettled, hrequests⟩
  | back _ heq | forward _ _ _ _ heq | type _ _ heq | away _ heq => cases hpending.symm.trans heq

/-- From an entry of the user one turn of the event loop leads back to the flutter entry. -/
theorem tick_of_away (path : String → String) (h : Away s.history) (hpending : s.pending = [.back])
    (hname : s.userProvidedRouteName = some (path s.history.current.url))
    (hrequests : s.requests = s.messages ++ [.pushRoute (path s.history.current.url)]) :
    ∃ t, step path s .tick = some t ∧ t.Invariant path ∧ t.pending = [] := by
  obtain ⟨flutter, origin, rest, hback, hflutter, horigin⟩ := h.flutter
  have hsettled : Settled ⟨origin :: rest, flutter, s.history.current :: s.history.forward⟩ :=
    ⟨hflutter, ⟨origin, rest, rfl, horigin⟩, fun entry hentry => by
      obtain rfl | hmem := List.mem_cons.mp hentry
      · exact h.current
      · exact h.foreign entry hmem⟩
  have hgo : back.apply s.history =
      some ⟨origin :: rest, flutter, s.history.current :: s.history.forward⟩ := by
    rw [apply, History.goBack, hback]
  rw [tick_eq path hpending hgo]
  obtain ⟨horigin, hflutter⟩ := hsettled.flutter
  rw [popStateListener, horigin, hflutter, hname]
  exact ⟨_, rfl, .idle hsettled rfl hrequests, rfl⟩

/-- In an entry of the user, the app goes back. -/
lemma popStateListener_foreign (path : String → String) (h : Away s.history)
    (hpending : s.pending = [])
    (hrequests : s.requests = s.messages ++ [.pushRoute (path s.history.current.url)]) :
    ∃ t, popStateListener path s = some t ∧ t.Invariant path ∧
      ∃ u, step path t .tick = some u ∧ u.pending = [] := by
  obtain ⟨horigin, hflutter⟩ := h.current
  have hback : s.pending ++ [.back] = [.back] := by rw [hpending, List.nil_append]
  rw [popStateListener, horigin, hflutter]
  refine ⟨_, rfl, .away h hback rfl hrequests, ?_⟩
  obtain ⟨u, hu, -, hnone⟩ := tick_of_away path (s := { s with
    userProvidedRouteName := some (s.currentPath path)
    pending := s.pending ++ [.back] }) h hback rfl hrequests
  exact ⟨u, hu, hnone⟩

/-- One turn of the event loop leads to the flutter entry, or to an entry of the user. -/
theorem Invariant.tick (h : s.Invariant path) (hpending : s.pending ≠ []) :
    ∃ t, step path s .tick = some t ∧ t.Invariant path ∧
      (t.pending = [] ∨ ∃ u, step path t .tick = some u ∧ u.pending = []) := by
  cases h with
  | idle _ heq => exact absurd heq hpending
  | back hsettled heq hrequests =>
    obtain ⟨origin, rest, hback, horigin⟩ := hsettled.origin
    have hgo : HistoryEvent.back.apply s.history =
        some ⟨rest, origin, s.history.current :: s.history.forward⟩ := by
      rw [apply, History.goBack, hback]
    -- at the origin a new flutter entry is pushed
    rw [tick_eq path heq hgo]
    obtain ⟨t, ht, hinvariant, hnone⟩ := popStateListener_origin path
      (s := { s with
        history := ⟨rest, origin, s.history.current :: s.history.forward⟩, pending := [] })
      horigin rfl hrequests
    exact ⟨t, ht, hinvariant, .inl hnone⟩
  | forward entry rest hsettled hforward heq hrequests =>
    -- what lies ahead was typed once, so that it is treated like an address that is typed
    have hforeign := hsettled.foreign
    rw [hforward] at hforeign
    have haway : Away ⟨s.history.current :: s.history.back, entry, rest⟩ :=
      hsettled.away (hforeign entry List.mem_cons_self) fun entry hentry =>
        hforeign entry (List.mem_cons_of_mem _ hentry)
    have hgo : HistoryEvent.forward.apply s.history =
        some ⟨s.history.current :: s.history.back, entry, rest⟩ := by
      rw [apply, History.goForward, hforward]
    rw [tick_eq path heq hgo]
    obtain ⟨t, ht, hinvariant, hnext⟩ := popStateListener_foreign path
      (s := { s with history := ⟨s.history.current :: s.history.back, entry, rest⟩, pending := [] })
      haway rfl hrequests
    exact ⟨t, ht, hinvariant, .inr hnext⟩
  | type url hsettled heq hrequests =>
    have haway : Away (s.history.pushState .null url) := hsettled.away ⟨rfl, rfl⟩ nofun
    rw [tick_eq path heq rfl]
    obtain ⟨t, ht, hinvariant, hnext⟩ := popStateListener_foreign path
      (s := { s with history := s.history.pushState .null url, pending := [] }) haway rfl hrequests
    exact ⟨t, ht, hinvariant, .inr hnext⟩
  | away haway heq hname hrequests =>
    obtain ⟨t, ht, hinvariant, hnone⟩ := tick_of_away path haway heq hname hrequests
    exact ⟨t, ht, hinvariant, .inl hnone⟩

/-- Each action keeps the invariant. -/
lemma Invariant.step (h : s.Invariant path) {a : Action}
    (hstep : BrowserHistory.step path s a = some t) : t.Invariant path := by
  cases a with
  | back =>
    rw [BrowserHistory.step] at hstep
    split at hstep
    · next hpending =>
      cases hstep
      obtain ⟨hsettled, hrequests⟩ := h.settled hpending
      exact .back hsettled rfl (by rw [hrequests])
    · cases hstep
  | forward =>
    rw [BrowserHistory.step] at hstep
    split at hstep
    · next entry rest hpending hforward =>
      cases hstep
      obtain ⟨hsettled, hrequests⟩ := h.settled hpending
      exact .forward entry rest hsettled hforward rfl (by rw [hrequests])
    · cases hstep
  | type url =>
    rw [BrowserHistory.step] at hstep
    split at hstep
    · next hpending =>
      cases hstep
      obtain ⟨hsettled, hrequests⟩ := h.settled hpending
      exact .type url hsettled rfl (by rw [hrequests])
    · cases hstep
  | setRouteName routeName =>
    rw [BrowserHistory.step] at hstep
    split at hstep
    · next hpending =>
      cases hstep
      obtain ⟨hsettled, hrequests⟩ := h.settled hpending
      exact .idle (hsettled.replaceState _) hpending hrequests
    · cases hstep
  | tick =>
    -- a step of the event loop is the one that `Invariant.tick` describes
    have hpending : s.pending ≠ [] := by
      intro hnil
      rw [BrowserHistory.step, hnil] at hstep
      cases hstep
    obtain ⟨t', ht', hinvariant, -⟩ := h.tick hpending
    cases ht'.symm.trans hstep
    exact hinvariant

/-- The app may be started from any entry; if it is a flutter entry, the page has been reloaded. -/
theorem invariant_setupStrategy (h : history.current.state.isFlutter = true → Settled history) :
    (setupStrategy path history).Invariant path := by
  rw [setupStrategy]
  split
  · next hflutter => exact .idle (h hflutter) rfl rfl
  · exact .idle (.pushState (h := history.replaceState .origin "") rfl _) rfl rfl

/-- Whenever nothing is pending, the current entry is a flutter entry directly above the origin, and
the messages that have been sent are those that the actions of the user call for, one for each. The
event loop gets there in two turns, and no assertion fails in them. -/
theorem flutter_entry_kept (hhistory : history.current.state.isFlutter = true → Settled history)
    (h : Run (step path) unguarded (setupStrategy path history) actions s) :
    (s.pending = [] → Settled s.history ∧ s.messages = s.requests) ∧
      (s.pending ≠ [] → ∃ t, step path s .tick = some t ∧
        (t.pending = [] ∨ ∃ u, step path t .tick = some u ∧ u.pending = [])) := by
  have hinvariant : s.Invariant path :=
    h.invariant (invariant_setupStrategy hhistory) fun _ _ _ hs _ hstep => hs.step hstep
  refine ⟨fun hpending => ?_, fun hpending => ?_⟩
  · obtain ⟨hsettled, hrequests⟩ := hinvariant.settled hpending
    exact ⟨hsettled, hrequests.symm⟩
  · obtain ⟨t, ht, -, hnext⟩ := hinvariant.tick hpending
    exact ⟨t, ht, hnext⟩

/-- The user types an address, goes forward to it, and goes back. -/
def visit : List Action :=
  [.type "/a", .tick, .tick, .setRouteName (some "/b"), .forward, .tick, .tick, .back, .tick]

theorem flutter_entry_kept_visit :
    ∃ s, Run (step id) unguarded (setupStrategy id ⟨[], ⟨.null, "/"⟩, []⟩) visit s ∧
      Settled s.history ∧ s.messages = s.requests ∧
      s.requests = [.pushRoute "/a", .pushRoute "/a", .popRoute] := by
  have hrun := run_iff_exec.mpr (show exec (step id) unguarded
    (setupStrategy id ⟨[], ⟨.null, "/"⟩, []⟩) visit = some _ from rfl)
  have hfresh : (⟨[], ⟨.null, "/"⟩, []⟩ : History).current.state.isFlutter ≠ true := by decide
  obtain ⟨hsettled, hmessages⟩ := (flutter_entry_kept (absurd · hfresh) hrun).1 rfl
  exact ⟨_, hrun, hsettled, hmessages, rfl⟩

end WebUi.BrowserHistory

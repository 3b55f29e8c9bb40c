import Mathlib.Algebra.GroupWithZero.Nat
import Mathlib.Data.List.TakeWhile
import Mathlib.Logic.Function.Basic

/-!
# Service protocol

`ServiceProtocol::HandleMessage` sends a request of a tool to the handler that its parameter
`viewId` names. The ids are written by `listViews` as the hexadecimal address of the handler after
`_flutterView/`. They are read back by skipping as many characters and calling `std::stoull`, which
throws on what is not a number and takes more spellings than the one that is written. A string is
the list of its bytes, written as characters.

The module introduces:

* `stoull`, the conversion of the C++ library for base 16, with its exceptions;
* `createFlutterViewID`, which writes an id, and `handleMessage`, which reads it;
* `Routed`, what is expected of a request: it neither throws nor reads past the end of a string, an
  id leads to its handler, any other `viewId` has no influence, and an error is answered if no
  handler runs;
* `Unrelated`, the values of `viewId` that are no ids of handlers and are read as such.

An id that is written is read back (`stoull_createFlutterViewID`). A request is routed if and only
if it is not `listViews`, which the protocol answers itself, and there are no handlers or its
`viewId`, if any, is an id of a handler or unrelated to them (`routed_iff`).
-/

namespace Flutter

/-! ## Hexadecimal numbers -/

/-- What `std::stoull` throws. -/
inductive StdException where
  | invalidArgument
  | outOfRange
deriving DecidableEq, Repr

/-- The value of a hexadecimal digit. -/
def hexDigit? (c : Char) : Option ℕ :=
  if '0' ≤ c ∧ c ≤ '9' then some (c.toNat - 48)
  else if 'a' ≤ c ∧ c ≤ 'f' then some (c.toNat - 87)
  else if 'A' ≤ c ∧ c ≤ 'F' then some (c.toNat - 55)
  else none

/-- The number that hexadecimal digits spell. -/
def hexValue (digits : List Char) : ℕ :=
  digits.foldl (fun value c => 16 * value + (hexDigit? c).getD 0) 0

/-- `std::isspace` in the C locale -/
def isSpace (c : Char) : Bool := c ∈ [' ', '\t', '\n', '\x0b', '\x0c', '\r']

/-- An optional sign: whether it is a minus, and the rest. -/
def takeSign : List Char → Bool × List Char
  | '-' :: s => (true, s)
  | '+' :: s => (false, s)
  | s => (false, s)

/-- The rest after an optional `0x`, which only counts before a digit. -/
def skipHexMark : List Char → List Char
  | '0' :: x :: c :: s =>
    if (x = 'x' ∨ x = 'X') ∧ (hexDigit? c).isSome then c :: s else '0' :: x :: c :: s
  | s => s

/-- `std::stoull(s, nullptr, 16)` for a string that ends at its first NUL -/
def stoull (s : List Char) : Except StdException (BitVec 64) :=
  let (negative, s) := takeSign (s.dropWhile isSpace)
  let digits := (skipHexMark s).takeWhile (hexDigit? · |>.isSome)
  if digits.isEmpty then
    .error .invalidArgument
  else if 2 ^ 64 ≤ hexValue digits then
    .error .outOfRange
  else
    .ok (if negative then -.ofNat 64 (hexValue digits) else .ofNat 64 (hexValue digits))

/-- A digit that is printed has its value. -/
lemma hexDigit?_digitChar : ∀ d < 16, hexDigit? d.digitChar = some d := by
  decide

/-- The digits that are printed of a number spell it. -/
theorem hexDigits_toDigits (n : ℕ) :
    (∀ c ∈ Nat.toDigits 16 n, (hexDigit? c).isSome) ∧ hexValue (Nat.toDigits 16 n) = n := by
  induction n using Nat.strongRecOn with
  | ind n ih =>
    rcases Nat.lt_or_ge n 16 with hlt | hge
    · simp [Nat.toDigits_of_lt_base hlt, hexValue, hexDigit?_digitChar n hlt]
    · obtain ⟨hdigits, hvalue⟩ := ih (n / 16) (Nat.div_lt_self (by omega) (by decide))
      have hlast := hexDigit?_digitChar (n % 16) (Nat.mod_lt n (by decide))
      rw [Nat.toDigits_of_base_le (by decide) hge]
      constructor
      · exact List.forall_mem_append.mpr ⟨hdigits, by simp [hlast]⟩
      · rw [hexValue, List.foldl_append, ← hexValue, hvalue]
        simp [hlast, Nat.div_add_mod]

/-! ## Requests -/

/-- `kViewIdPrefx` -/
def viewIdPrefx : List Char := "_flutterView/".toList

/-- `CreateFlutterViewID` -/
def createFlutterViewID (handler : BitVec 64) : List Char :=
  viewIdPrefx ++ ['0', 'x'] ++ Nat.toDigits 16 handler.toNat

/-- The addresses of the registered handlers, in the order of the map. -/
structure ServiceProtocol where
  handlers : List (BitVec 64)
  sorted : handlers.Pairwise (· < ·)

/-- What becomes of a request. -/
inductive Response where
  /-- the answer of `HandleListViewsMethod`, with the ids of the views -/
  | viewList (ids : List (List Char))
  /-- what the handler at an address answers -/
  | delivered (handler : BitVec 64)
  /-- `WriteServerErrorResponse`, and false -/
  | serverError (message : String)
  | throws (exception : StdException)
  /-- the string behind the id is read past its end -/
  | readsPastEnd
deriving DecidableEq, Repr

namespace ServiceProtocol

variable (self : ServiceProtocol)

/-- The ids that `HandleListViewsMethod` writes; the descriptions of the isolates are left out. -/
def viewIds : List (List Char) := self.handlers.map createFlutterViewID

/-- The methods that need no handler in their arguments: `kScreenshotExtensionName`,
`kScreenshotSkpExtensionName` and `kFlushUIThreadTasksExtensionName` -/
def IsLegacy (method : String) : Prop :=
  method = "_flutter.screenshot" ∨ method = "_flutter.screenshotSkp" ∨
    method = "_flutter.flushUIThreadTasks"

instance (method : String) : Decidable (IsLegacy method) := inferInstanceAs (Decidable (_ ∨ _))

/-- The last part of `HandleMessage`, for requests without a handler in their arguments. -/
def handleLegacy (first : BitVec 64) (method : String) : Response :=
  if IsLegacy method then
    .delivered first
  else
    .serverError
      "Service protocol could not handle or find a handler for the requested method."

/-- `HandleMessage` -/
def handleMessage (method : String) (params : String → Option (List Char)) : Response :=
  if method = "_flutter.listViews" then
    .viewList self.viewIds
  else
    match self.handlers with
    | [] => .serverError "There are no running service protocol handlers."
    | first :: _ =>
      match params "viewId" with
      | none => handleLegacy first method
      | some viewId =>
        if viewId.length < viewIdPrefx.length then
          .readsPastEnd
        else
          match stoull (viewId.drop viewIdPrefx.length) with
          | .error exception => .throws exception
          | .ok handler =>
            if handler ∈ self.handlers then .delivered handler else handleLegacy first method

/-- A `viewId` that reads as an address without a handler, or as the one of the handler that gets
the request anyway. -/
def Unrelated (method : String) (viewId : List Char) : Prop :=
  viewIdPrefx.length ≤ viewId.length ∧
    ∃ handler, stoull (viewId.drop viewIdPrefx.length) = .ok handler ∧
      (handler ∉ self.handlers ∨ IsLegacy method ∧ self.handlers.head? = some handler)

/-- A request is routed or refused: it neither throws nor reads past the end of a string, a handler
whose id is given gets it, another id has no influence on who gets it, and an error is answered if
nobody does. -/
structure Routed (protocol : ServiceProtocol) (method : String)
    (params : String → Option (List Char)) : Prop where
  not_throws : ∀ exception, protocol.handleMessage method params ≠ .throws exception
  not_readsPastEnd : protocol.handleMessage method params ≠ .readsPastEnd
  delivered : ∀ handler ∈ protocol.handlers, params "viewId" = some (createFlutterViewID handler) →
    protocol.handleMessage method params = .delivered handler
  other : ∀ viewId, params "viewId" = some viewId → viewId ∉ protocol.viewIds → ∀ handler,
    protocol.handleMessage method params = .delivered handler →
      protocol.handleMessage method (Function.update params "viewId" none) = .delivered handler
  refused : (∀ handler, protocol.handleMessage method params ≠ .delivered handler) →
    ∃ message, protocol.handleMessage method params = .serverError message

/-- An id that is written is read back. -/
theorem stoull_createFlutterViewID (handler : BitVec 64) :
    stoull ((createFlutterViewID handler).drop viewIdPrefx.length) = .ok handler := by
  obtain ⟨hdigits, hvalue⟩ := hexDigits_toDigits handler.toNat
  rw [createFlutterViewID, List.append_assoc, List.drop_left]
  cases hs : Nat.toDigits 16 handler.toNat with
  | nil => exact absurd hs Nat.toDigits_ne_nil
  | cons c s =>
    rw [hs] at hdigits hvalue
    have hskip : skipHexMark ('0' :: 'x' :: c :: s) = c :: s := by
      simp [skipHexMark, hdigits c List.mem_cons_self]
    have hall : (c :: s).takeWhile (hexDigit? · |>.isSome) = c :: s :=
      List.takeWhile_eq_self_iff.mpr hdigits
    simp [stoull, isSpace, takeSign, hskip, hall, hvalue, handler.isLt]

section Requests

variable {self} {method : String} {params : String → Option (List Char)}
  (hmethod : method ≠ "_flutter.listViews")

include hmethod

/-- A request without `viewId` is delivered or refused. -/
lemma handleMessage_of_none (hparams : params "viewId" = none) :
    (∃ handler, self.handleMessage method params = .delivered handler) ∨
      ∃ message, self.handleMessage method params = .serverError message := by
  cases hhandlers : self.handlers with
  | nil =>
    simp only [handleMessage, hmethod, hhandlers, if_false]
    exact .inr ⟨_, rfl⟩
  | cons first handlers =>
    simp only [handleMessage, hmethod, hhandlers, hparams, handleLegacy, if_false]
    split
    · exact .inl ⟨_, rfl⟩
    · exact .inr ⟨_, rfl⟩

/-- A handler gets the requests with its id. -/
lemma handleMessage_createFlutterViewID {handler : BitVec 64} (hhandler : handler ∈ self.handlers)
    (hparams : params "viewId" = some (createFlutterViewID handler)) :
    self.handleMessage method params = .delivered handler := by
  have hlength : ¬ (createFlutterViewID handler).length < viewIdPrefx.length := by
    simp [createFlutterViewID]
  cases hhandlers : self.handlers with
  | nil => simp [hhandlers] at hhandler
  | cons first handlers =>
    rw [hhandlers] at hhandler
    simp [handleMessage, hmethod, hhandlers, hparams, hlength, stoull_createFlutterViewID, hhandler]

/-- A `viewId` that is unrelated to the handlers has no influence. -/
lemma handleMessage_of_unrelated {viewId : List Char} (hparams : params "viewId" = some viewId)
    (h : self.Unrelated method viewId) :
    self.handleMessage method params =
      self.handleMessage method (Function.update params "viewId" none) := by
  obtain ⟨hlength, handler, hstoull, hhandler⟩ := h
  cases hhandlers : self.handlers with
  | nil => simp [handleMessage, hhandlers]
  | cons first handlers =>
    rw [hhandlers] at hhandler
    by_cases hmem : handler ∈ first :: handlers
    · obtain ⟨hlegacy, hfirst⟩ := hhandler.resolve_left (not_not_intro hmem)
      rw [List.head?_cons, Option.some.injEq] at hfirst
      simp [handleMessage, handleLegacy, hmethod, hhandlers, hparams, Nat.not_lt.mpr hlength,
        hstoull, hlegacy, hfirst]
    · simp [handleMessage, hmethod, hhandlers, hparams, Nat.not_lt.mpr hlength, hstoull, hmem]

/-- Without an id of a handler, a request that is answered as if it had no id is routed. -/
lemma routed_of_eq (hids : ∀ viewId ∈ self.viewIds, params "viewId" ≠ some viewId)
    (heq : self.handleMessage method params =
      self.handleMessage method (Function.update params "viewId" none)) :
    self.Routed method params := by
  have hnone := @handleMessage_of_none self method _ hmethod
    (Function.update_self "viewId" none params)
  rw [← heq] at hnone
  refine ⟨fun exception hthrows => ?_, fun hreads => ?_, fun handler hhandler hviewId => ?_,
    fun _ _ _ handler hdelivered => heq ▸ hdelivered, fun hnot => ?_⟩
  · simp [hthrows] at hnone
  · simp [hreads] at hnone
  · exact absurd hviewId (hids _ (List.mem_map_of_mem hhandler))
  · exact hnone.resolve_left fun ⟨handler, hdelivered⟩ => hnot handler hdelivered

/-- A request with the id of a handler is routed. -/
lemma routed_of_mem {viewId : List Char} (hviewId : params "viewId" = some viewId)
    (hmem : viewId ∈ self.viewIds) : self.Routed method params := by
  obtain ⟨handler, hhandler, rfl⟩ := List.mem_map.mp hmem
  have hdelivered := handleMessage_createFlutterViewID hmethod hhandler hviewId
  refine ⟨by simp [hdelivered], by simp [hdelivered], fun handler' => ?_, ?_, ?_⟩
  · exact handleMessage_createFlutterViewID hmethod
  · simp [hviewId, hmem]
  · exact fun hnot => absurd hdelivered (hnot handler)

/-- If there are handlers, any other `viewId` of a request that is routed is unrelated to them. -/
lemma Routed.unrelated {viewId : List Char} (h : self.Routed method params)
    (hhandlers : self.handlers ≠ []) (hviewId : params "viewId" = some viewId)
    (hnot : viewId ∉ self.viewIds) : self.Unrelated method viewId := by
  obtain ⟨first, handlers, hcons⟩ := List.exists_cons_of_ne_nil hhandlers
  have hlength : ¬ viewId.length < viewIdPrefx.length := fun hshort =>
    h.not_readsPastEnd (by simp [handleMessage, hmethod, hcons, hviewId, hshort])
  refine ⟨Nat.le_of_not_lt hlength, ?_⟩
  cases hstoull : stoull (viewId.drop viewIdPrefx.length) with
  | error exception =>
    refine absurd ?_ (h.not_throws exception)
    simp [handleMessage, hmethod, hcons, hviewId, hlength, hstoull]
  | ok handler =>
    refine ⟨handler, rfl, or_iff_not_imp_left.mpr fun hmem => ?_⟩
    rw [not_not, hcons] at hmem
    have hdelivered : self.handleMessage method params = .delivered handler := by
      simp [handleMessage, hmethod, hcons, hviewId, hlength, hstoull, hmem]
    -- the handler gets the request without the id, too, which only the first one does
    have hsame := h.other viewId hviewId hnot handler hdelivered
    by_cases hlegacy : IsLegacy method
    · simpa [handleMessage, handleLegacy, hmethod, hcons, hlegacy] using hsame
    · simp [handleMessage, handleLegacy, hmethod, hcons, hlegacy] at hsame

end Requests

/-- A request is routed or refused if and only if it is not `listViews` and there are no handlers or
its `viewId`, if any, is an id that `listViews` writes or is unrelated to the handlers. -/
theorem routed_iff (method : String) (params : String → Option (List Char)) :
    self.Routed method params ↔ method ≠ "_flutter.listViews" ∧
      (self.handlers = [] ∨ ∀ viewId, params "viewId" = some viewId →
        viewId ∈ self.viewIds ∨ self.Unrelated method viewId) := by
  constructor
  · intro h
    have hmethod : method ≠ "_flutter.listViews" := by
      rintro rfl
      obtain ⟨message, hmessage⟩ := h.refused (by simp [handleMessage])
      simp [handleMessage] at hmessage
    refine ⟨hmethod, or_iff_not_imp_left.mpr fun hhandlers viewId hviewId => ?_⟩
    exact or_iff_not_imp_left.mpr (h.unrelated hmethod hhandlers hviewId)
  · rintro ⟨hmethod, hparams⟩
    cases hviewId : params "viewId" with
    | none =>
      refine routed_of_eq hmethod (by simp [hviewId]) ?_
      rw [← hviewId, Function.update_eq_self]
    | some viewId =>
      by_cases hmem : viewId ∈ self.viewIds
      · exact routed_of_mem hmethod hviewId hmem
      · refine routed_of_eq hmethod (fun viewId' hviewId' hsome => hmem ?_) ?_
        · rwa [Option.some.inj (hviewId.symm.trans hsome)]
        · rcases hparams with hnil | hparams
          · simp [handleMessage, hnil]
          · exact handleMessage_of_unrelated hmethod hviewId
              ((hparams viewId hviewId).resolve_left hmem)

/-- With handlers at the addresses 0x1234 and 0x5678, a request with the id of the second one and
one with an address without a handler are routed. -/
theorem routed_iff_two :
    let self : ServiceProtocol := ⟨[0x1234, 0x5678], by decide⟩
    self.Routed "_flutter.runInView" (fun _ => some "_flutterView/0x5678".toList) ∧
      self.Routed "_flutter.screenshot" (fun _ => some "_flutterView/0x9abc".toList) := by
  intro self
  refine ⟨(routed_iff self _ _).mpr ⟨by decide, .inr fun _ hviewId => .inl ?_⟩,
    (routed_iff self _ _).mpr ⟨by decide, .inr fun _ hviewId => .inr ?_⟩⟩
  · rw [← Option.some.inj hviewId]
    decide
  · rw [← Option.some.inj hviewId]
    exact ⟨by decide, 0x9abc, by decide, .inl (by decide)⟩

/-- An id that is too short is read past its end, one that is no number throws, and one with other
characters in the place of `_flutterView/` reaches a handler. -/
theorem handleMessage_other_ids :
    let self : ServiceProtocol := ⟨[0x1234], List.pairwise_singleton _ _⟩
    self.handleMessage "_flutter.runInView" (fun _ => some "0x1234".toList) = .readsPastEnd ∧
      self.handleMessage "_flutter.runInView" (fun _ => some "_flutterView/view".toList) =
        .throws .invalidArgument ∧
      self.handleMessage "_flutter.runInView" (fun _ => some "another/view/ 1234".toList) =
        .delivered 0x1234 := by
  decide

end ServiceProtocol

end Flutter

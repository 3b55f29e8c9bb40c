import FlutterEngine.Lib.Stream

/-!
# Rules for readers of arbitrary messages

What can be said about a reader whatever the message is, rule by rule along its structure.

* `Parser.Total`: it always returns, and never goes back.
* `Parser.Avoids`: it never fails with a given error, and stays within the message.
* `Parser.Guides`: a family of readers agrees on the result wherever a given reader succeeds.
* `Parser.Pays`: what it returns is bounded by what it consumes, counted in symbols of some kind.
-/

namespace Lib

open List

variable {α β γ ε : Type}

namespace Parser

/-! ## Readers that never fail -/

/-- From every position that is not before `start`, `p` returns, and does not go back. -/
def Total (p : Parser α ε β) (message : List α) (start : ℕ) : Prop :=
  ∀ pos, start ≤ pos → ∃ b next, p.parse message pos = .ok (b, next) ∧ pos ≤ next

namespace Total

variable {p : Parser α ε β} {f : β → Parser α ε γ} {message : List α} {start : ℕ}

/-- Reading nothing never fails. -/
protected lemma pure {b : β} : Total (pure b : Parser α ε β) message start :=
  fun pos _ => ⟨b, pos, rfl, le_rfl⟩

/-- Asking for the position never fails. -/
protected lemma position : Total (position : Parser α ε ℕ) message start :=
  fun pos _ => ⟨pos, pos, rfl, le_rfl⟩

/-- Two parsers that never fail. -/
protected lemma bind (hp : Total p message start) (hf : ∀ b, Total (f b) message start) :
    Total (p >>= f) message start := by
  intro pos hpos
  obtain ⟨b, mid, hb, hmid⟩ := hp pos hpos
  obtain ⟨c, next, hc, hnext⟩ := hf b mid (le_trans hpos hmid)
  exact ⟨c, next, by rw [bind_parse hb, hc], le_trans hmid hnext⟩

/-- A repetition never fails. -/
protected lemma times (hp : Total p message start) : ∀ n, Total (p.times n) message start
  | 0 => Total.pure
  | n + 1 => hp.bind fun _ => (Total.times hp n).bind fun _ => Total.pure

end Total

/-! ## Readers that avoid an error -/

/-- From every position that is not before `start`, `p` does not fail with `error`, and goes neither
back nor beyond the end of the message. -/
def Avoids (p : Parser α ε β) (error : ε) (message : List α) (start : ℕ) : Prop :=
  ∀ pos, start ≤ pos → p.parse message pos ≠ .error error ∧
    ∀ b next, p.parse message pos = .ok (b, next) → pos ≤ next ∧ next ≤ max pos message.length

namespace Avoids

variable {p : Parser α ε β} {f : β → Parser α ε γ} {error : ε} {message : List α} {start : ℕ}

/-- Reading nothing does not fail. -/
protected lemma pure {b : β} : Avoids (pure b : Parser α ε β) error message start := by
  refine fun pos _ => ⟨nofun, fun _ _ h => ?_⟩
  cases h
  omega

/-- Another error. -/
protected lemma fail {error' : ε} (hne : error' ≠ error) :
    Avoids (fail error' : Parser α ε β) error message start :=
  fun _ _ => ⟨fun h => hne (Except.error.inj h), nofun⟩

/-- Asking whether anything is left. -/
protected lemma remaining : Avoids (remaining : Parser α ε Bool) error message start := by
  refine fun pos _ => ⟨nofun, fun _ _ h => ?_⟩
  cases h
  omega

/-- A lack of elements is another error. -/
protected lemma take {error' : ε} (hne : error' ≠ error) (n : ℕ) :
    Avoids (take error' n : Parser α ε (List α)) error message start := by
  refine fun pos _ => ⟨fun h => ?_, fun _ _ h => ?_⟩
  · dsimp only [take] at h
    split at h
    · cases h
    · exact hne (Except.error.inj h)
  · obtain ⟨hslice, rfl, rfl⟩ := take_ok.mp h
    have := hslice.length_le
    omega

/-- Two parsers that avoid an error. -/
protected lemma bind (hp : Avoids p error message start)
    (hf : ∀ b, Avoids (f b) error message start) : Avoids (p >>= f) error message start := by
  refine fun pos hpos => ⟨fun h => ?_, fun c next h => ?_⟩
  · rcases bind_error.mp h with herror | ⟨b, mid, hb, hc⟩
    · exact (hp pos hpos).1 herror
    · have hmid := (hp pos hpos).2 b mid hb
      exact (hf b mid (by omega)).1 hc
  · obtain ⟨b, mid, hb, hc⟩ := bind_ok.mp h
    have hmid := (hp pos hpos).2 b mid hb
    have hnext := (hf b mid (by omega)).2 c next hc
    omega

/-- Behind a symbol there is less to read. -/
theorem next_bind {error' : ε} {f : α → Parser α ε γ} (hne : error' ≠ error)
    (hf : ∀ x, Avoids (f x) error message (start + 1)) :
    Avoids (next error' >>= f) error message start := by
  refine fun pos hpos => ⟨fun h => ?_, fun c after h => ?_⟩
  · rcases bind_error.mp h with herror | ⟨x, mid, hx, hc⟩
    · dsimp only [next] at herror
      split at herror
      · cases herror
      · exact hne (Except.error.inj herror)
    · obtain ⟨-, rfl⟩ := next_ok.mp hx
      exact (hf x _ (Nat.succ_le_succ hpos)).1 hc
  · obtain ⟨x, mid, hx, hc⟩ := bind_ok.mp h
    obtain ⟨hslice, rfl⟩ := next_ok.mp hx
    have hlt : pos + 1 ≤ message.length := hslice.length_le
    have hafter := (hf x _ (Nat.succ_le_succ hpos)).2 c after hc
    omega

/-- A repetition avoids an error. -/
protected lemma times (hp : Avoids p error message start) :
    ∀ n, Avoids (p.times n) error message start
  | 0 => Avoids.pure
  | n + 1 => hp.bind fun _ => (Avoids.times hp n).bind fun _ => Avoids.pure

end Avoids

/-! ## Readers that agree -/

variable {ι : Type}

/-- Whenever `p` returns, so does every reader of the family `q`, with the same result for the
whole family, related by `R` to that of `p`, and at the same position. -/
def Guides (p : Parser α ε β) (q : ι → Parser α ε γ) (message : List α) (R : β → γ → Prop) : Prop :=
  ∀ pos b next, p.parse message pos = .ok (b, next) →
    ∃ c, R b c ∧ ∀ i, (q i).parse message pos = .ok (c, next)

namespace Guides

variable {p : Parser α ε β} {q : ι → Parser α ε γ} {message : List α} {R : β → γ → Prop}

/-- Nothing is read by either. -/
protected lemma pure {b : β} {c : γ} (h : R b c) :
    Guides (pure b : Parser α ε β) (fun _ : ι => pure c) message R := by
  intro pos b' next hb
  rw [pure_parse, Except.ok.injEq, Prod.mk.injEq] at hb
  obtain ⟨rfl, rfl⟩ := hb
  exact ⟨c, h, fun _ => rfl⟩

/-- A reader that does not depend on the index guides itself. -/
theorem self (p : Parser α ε β) : Guides p (fun _ : ι => p) message Eq :=
  fun _ b _ h => ⟨b, rfl, fun _ => h⟩

/-- Two parsers that guide two others. -/
protected lemma bind {β' γ' : Type} {R' : β' → γ' → Prop} {f : β → Parser α ε β'}
    {g : ι → γ → Parser α ε γ'} (hp : Guides p q message R)
    (hf : ∀ b c, R b c → Guides (f b) (fun i => g i c) message R') :
    Guides (p >>= f) (fun i => q i >>= g i) message R' := by
  intro pos b' next h
  obtain ⟨b, mid, hb, hb'⟩ := bind_ok.mp h
  obtain ⟨c, hR, hc⟩ := hp pos b mid hb
  obtain ⟨c', hR', hc'⟩ := hf b c hR mid b' next hb'
  exact ⟨c', hR', fun i => by rw [bind_parse (hc i), hc' i]⟩

/-- The rule for a family that goes on to combine its results. -/
theorem right_pure {δ : Type} {R' : β → δ → Prop} {g : γ → δ} (hp : Guides p q message R)
    (hg : ∀ b c, R b c → R' b (g c)) : Guides p (fun i => do return g (← q i)) message R' := by
  intro pos b next hb
  obtain ⟨c, hR, hc⟩ := hp pos b next hb
  exact ⟨g c, hg b c hR, fun i => by rw [bind_parse (hc i), pure_parse]⟩

/-- Asking for the position changes nothing. -/
theorem position_bind {g : ι → ℕ → Parser α ε γ}
    (h : ∀ pos, Guides p (fun i => g i pos) message R) :
    Guides p (fun i => position >>= g i) message R := by
  intro pos b next hb
  obtain ⟨c, hR, hc⟩ := h pos pos b next hb
  exact ⟨c, hR, fun i => by rw [bind_parse position_parse, hc i]⟩

/-- A repetition guides a repetition. -/
protected lemma times (hp : Guides p q message R) :
    ∀ n, Guides (p.times n) (fun i => (q i).times n) message (List.Forall₂ R)
  | 0 => Guides.pure List.Forall₂.nil
  | n + 1 => hp.bind fun _ _ hb => (Guides.times hp n).bind fun _ _ hbs =>
      Guides.pure (List.Forall₂.cons hb hbs)

end Guides

end Parser

/-! ## Counting what a reader consumes -/

/-- How many symbols that satisfy `P` stand before a position. -/
def before (P : α → Bool) (message : List α) (pos : ℕ) : ℕ := (message.take pos).countP P

section Before

variable {P : α → Bool} {message segment : List α} {pos next : ℕ}

/-- More lies in front of a later position. -/
lemma before_mono (h : pos ≤ next) : before P message pos ≤ before P message next :=
  (take_sublist_take_left h).countP_le

/-- No more lies in front of a position than there is. -/
lemma before_le : before P message pos ≤ message.countP P := (take_sublist pos message).countP_le

/-- What lies in front of the end of a slice. -/
lemma before_sliceAt (h : SliceAt message pos segment) :
    before P message (pos + segment.length) = before P message pos + segment.countP P := by
  obtain ⟨start, rest, rfl, rfl⟩ := h
  rw [before, before, take_left, ← append_assoc, ← length_append, take_left, countP_append]

end Before

namespace Parser

/-- Every result of `p` is paid for: its weight is at most the number of symbols satisfying `P`
that `p` moves behind. -/
def Pays (p : Parser α ε β) (P : α → Bool) (message : List α) (weight : β → ℕ) : Prop :=
  ∀ pos b next, p.parse message pos = .ok (b, next) →
    weight b + before P message pos ≤ before P message next

namespace Pays

variable {P : α → Bool} {message : List α} {p : Parser α ε β} {weight : β → ℕ}

/-- What weighs nothing costs nothing. -/
protected lemma pure {b : β} (h : weight b = 0) :
    Pays (pure b : Parser α ε β) P message weight := by
  intro pos b' next hb
  rw [pure_parse, Except.ok.injEq, Prod.mk.injEq] at hb
  obtain ⟨rfl, rfl⟩ := hb
  rw [h, Nat.zero_add]

/-- What the first reader has paid for need not be paid for by the second. -/
protected theorem bind {f : β → Parser α ε γ} {weight' : γ → ℕ} (hp : Pays p P message weight)
    (hf : ∀ b, Pays (f b) P message fun c => weight' c - weight b) :
    Pays (p >>= f) P message weight' := by
  intro pos c next h
  obtain ⟨b, mid, hb, hc⟩ := bind_ok.mp h
  have hfirst := hp pos b mid hb
  have hsecond : weight' c - weight b + before P message mid ≤ before P message next :=
    hf b mid c next hc
  omega

protected lemma fail {error : ε} : Pays (fail error : Parser α ε β) P message weight := nofun

protected lemma remaining : Pays (remaining : Parser α ε Bool) P message fun _ => 0 := by
  intro pos b next h
  cases h
  rw [Nat.zero_add]

/-- A symbol is paid for with itself. -/
protected theorem next (error : ε) : Pays (next error) P message fun x => [x].countP P := by
  intro pos x next h
  obtain ⟨hslice, rfl⟩ := next_ok.mp h
  rw [Nat.add_comm]
  exact le_of_eq (before_sliceAt hslice).symm

/-- Symbols that are taken are paid for with themselves. -/
protected theorem take (error : ε) (n : ℕ) :
    Pays (take error n) P message fun data => data.countP P := by
  intro pos data next h
  obtain ⟨hslice, hlength, rfl⟩ := take_ok.mp h
  rw [← hlength, before_sliceAt hslice, Nat.add_comm]

/-- Asking for the position costs nothing. -/
lemma position_bind {f : ℕ → Parser α ε β} (hf : ∀ pos, Pays (f pos) P message weight) :
    Pays (position >>= f) P message weight := by
  intro pos b next h
  rw [bind_parse position_parse] at h
  exact hf pos pos b next h

/-- A bound on the weight need only hold for what can be returned. -/
theorem mono {weight' : β → ℕ} (hp : Pays p P message weight)
    (h : ∀ pos b next, p.parse message pos = .ok (b, next) → weight' b ≤ weight b) :
    Pays p P message weight' := by
  intro pos b next hb
  have := hp pos b next hb
  have := h pos b next hb
  omega

/-- A repetition costs as much as its results. -/
protected lemma times (hp : Pays p P message weight) :
    ∀ n, Pays (p.times n) P message fun bs => (bs.map weight).sum
  | 0 => Pays.pure rfl
  | n + 1 => hp.bind fun b => (Pays.times hp n).bind fun bs => Pays.pure (by simp)

/-- A pair costs as much as its parts. -/
protected lemma pair (hp : Pays p P message weight) :
    Pays (do return (← p, ← p)) P message fun entry => weight entry.1 + weight entry.2 :=
  hp.bind fun _ => hp.bind fun _ => Pays.pure (by simp)

end Pays

end Parser

end Lib

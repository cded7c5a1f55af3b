import EchoLoad.Random.Supply

/-!
# Draws that keep to their ranges

A drawing may give nothing, since a source can run out or reject too often. So it is said apart what a
drawing gives, if it does (`Drawing.Gives`), and that it gives something (`Drawing.Returns`).

A supply is asked for numbers of a range. That they lie in it is all that the requests of a port rely on
(`Supply.InRange`), and it holds of the numbers that are made from words:

> `Supply.inRange_source`: a word that is accepted stands for a number of the range.
-/

namespace EchoLoad.Random

namespace Drawing

variable {σ α β : Type} {p : α → Prop} {q : β → Prop} {x : Drawing σ α} {f : α → Drawing σ β}

/-- Whatever is drawn has a property. -/
def Gives (p : α → Prop) (x : Drawing σ α) : Prop := ∀ s a t, x s = some (a, t) → p a

/-- There is something to draw, whatever the state. -/
def Returns (x : Drawing σ α) : Prop := ∀ s, ∃ a t, x s = some (a, t)

theorem bind_eq_some {s u : σ} {b : β} :
    (x >>= f) s = some (b, u) ↔ ∃ a t, x s = some (a, t) ∧ f a t = some (b, u) := by
  show (x s >>= fun r => f r.1 r.2) = some (b, u) ↔ _
  cases hx : x s with
  | none => simp
  | some r =>
    obtain ⟨a, t⟩ := r
    constructor
    · intro hb
      exact ⟨a, t, rfl, hb⟩
    · rintro ⟨a', t', hsame, hb⟩
      cases hsame
      exact hb

theorem Gives.imp (hx : x.Gives p) {r : α → Prop} (h : ∀ a, p a → r a) : x.Gives r :=
  fun s a t ha => h a (hx s a t ha)

theorem gives_any (x : Drawing σ α) : x.Gives fun _ => True := fun _ _ _ _ => trivial

theorem gives_pure {a : α} (h : p a) : Gives p (pure a : Drawing σ α) := by
  intro s b t hb
  cases hb
  exact h

theorem Gives.bind (hx : x.Gives p) (hf : ∀ a, p a → (f a).Gives q) : Gives q (x >>= f) := by
  intro s b u hb
  obtain ⟨a, t, ha, hb⟩ := bind_eq_some.mp hb
  exact hf a (hx s a t ha) t b u hb

theorem returns_pure (a : α) : Returns (pure a : Drawing σ α) := fun s => ⟨a, s, rfl⟩

theorem Returns.bind (hx : x.Returns) (hf : ∀ a, (f a).Returns) : Returns (x >>= f) := by
  intro s
  obtain ⟨a, t, ha⟩ := hx s
  obtain ⟨b, u, hb⟩ := hf a t
  exact ⟨b, u, bind_eq_some.mpr ⟨a, t, ha, hb⟩⟩

/-! ## Draws that are repeated -/

theorem Gives.collect (hx : x.Gives p) (n : Nat) :
    ∀ got : Array α, (∀ a ∈ got, p a) →
      (collect x n got).Gives fun all => all.size = got.size + n ∧ ∀ a ∈ all, p a := by
  induction n with
  | zero =>
    intro got hgot
    exact gives_pure ⟨rfl, hgot⟩
  | succ n ih =>
    intro got hgot
    refine hx.bind fun a ha => ?_
    have hpush : ∀ b ∈ got.push a, p b := by
      intro b hb
      rcases Array.mem_push.mp hb with hb | rfl
      · exact hgot b hb
      · exact ha
    refine (ih (got.push a) hpush).imp fun all hall => ⟨?_, hall.2⟩
    rw [hall.1, Array.size_push]
    omega

/-- As many results as were asked for, each with the property of one. -/
theorem Gives.times (hx : x.Gives p) (n : Nat) :
    (times n x).Gives fun all => all.length = n ∧ ∀ a ∈ all, p a := by
  refine (hx.collect n #[] (by simp)).bind fun all hall => gives_pure ⟨?_, ?_⟩
  · rw [Array.length_toList, hall.1]
    exact Nat.zero_add n
  · intro a ha
    exact hall.2 a (Array.mem_toList_iff.mp ha)

theorem Returns.collect (hx : x.Returns) (n : Nat) : ∀ got : Array α, (collect x n got).Returns := by
  induction n with
  | zero => intro got; exact returns_pure got
  | succ n ih =>
    intro got
    exact hx.bind fun a => ih (got.push a)

theorem Returns.times (hx : x.Returns) (n : Nat) : (times n x).Returns :=
  (hx.collect n #[]).bind fun all => returns_pure all.toList

end Drawing

open Drawing

/-! ## Supplies -/

namespace Supply

variable {σ : Type}

/-- Uniform numbers lie in the range that is asked for. -/
structure InRange (supply : Supply σ) : Prop where
  below : ∀ range, 0 < range → (supply.below range).Gives (· < range)
  between : ∀ low high : Int32, low ≤ high →
    (supply.between low high).Gives fun n => low ≤ n ∧ n ≤ high

/-- There is always a number to draw. -/
structure Lasting (supply : Supply σ) : Prop where
  below : ∀ range, 0 < range → (supply.below range).Returns
  between : ∀ low high : Int32, low ≤ high → (supply.between low high).Returns
  exponential : supply.exponential.Returns

end Supply

/-! ## Numbers made from words -/

namespace Draw

theorem gives_retryAtMost {α : Type} {p : α → Prop} {draw : Draw (Option α)}
    (h : Gives (fun o => ∀ a ∈ o, p a) draw) (n : Nat) : (retryAtMost draw n).Gives p := by
  induction n with
  | zero =>
    intro s a t ha
    cases ha
  | succ n ih =>
    refine Gives.bind h fun o ho => ?_
    cases o with
    | none => exact ih
    | some a => exact gives_pure (ho a rfl)

theorem gives_retry {α : Type} {p : α → Prop} {draw : Draw (Option α)}
    (h : Gives (fun o => ∀ a ∈ o, p a) draw) : (retry draw).Gives p :=
  fun s => gives_retryAtMost h s.patience s

theorem gives_below32 {range : Nat} (hrange : 0 < range) : (below32 range).Gives (· < range) := by
  refine gives_retry ((gives_any word32).bind fun w _ => ?_)
  exact gives_pure fun n hn => scale?_lt hrange w.toNat_lt hn

theorem gives_below64 {range : Nat} (hrange : 0 < range) : (below64 range).Gives (· < range) := by
  refine gives_retry ((gives_any word64).bind fun w _ => ?_)
  exact gives_pure fun n hn => scale?_lt hrange w.toNat_lt hn

theorem gives_between {low high : Int32} (h : low ≤ high) :
    (between low high).Gives fun n => low ≤ n ∧ n ≤ high := by
  have hle := Int32.le_iff_toInt_le.mp h
  refine (gives_below32 (by omega)).bind fun offset hoffset => gives_pure ?_
  have hlow := low.le_toInt
  have hhigh := high.toInt_lt
  have hsum : (Int32.ofInt (low.toInt + offset)).toInt = low.toInt + offset :=
    Int32.toInt_ofInt_of_le (by omega) (by omega)
  rw [Int32.le_iff_toInt_le, Int32.le_iff_toInt_le, hsum]
  omega

end Draw

/-- **A word that is accepted stands for a number of the range.** -/
theorem Supply.inRange_source : Supply.source.InRange where
  below _ hrange := Draw.gives_below64 hrange
  between _ _ h := Draw.gives_between h

end EchoLoad.Random

import EchoLoad.Stream.Table

/-!
# What the operations on a table do to its entries

A table is known by what stands under each token (`Table.get?`). Tokens that were freed wait to be given
out again, and as long as those are out of use (`Table.Sound`) a new entry takes the place of none:

> `Table.insert_turn`: an entry comes under a token under which nothing stood, or nothing changes.
-/

namespace EchoLoad.Stream

namespace Table

variable {α : Type}

/-- Each token that waits to be given out again is out of use, and waits once. -/
structure Sound (t : Table α) : Prop where
  vacant : ∀ token ∈ t.free, token < t.slots.size ∧ t.get? token = none
  once : t.free.Nodup

theorem sound_new (limit : Nat) : (new limit : Table α).Sound where
  vacant := by simp [new]
  once := List.nodup_nil

/-- No token is used yet that no slot has. -/
theorem get?_of_size_le {t : Table α} {token : Nat} (h : t.slots.size ≤ token) :
    t.get? token = none := by
  rw [get?, Array.getElem?_eq_none h]
  rfl

theorem lt_size_of_get? {t : Table α} {token : Nat} {x : α} (h : t.get? token = some x) :
    token < t.slots.size := by
  refine Nat.lt_of_not_le fun hge => ?_
  rw [get?_of_size_le hge] at h
  cases h

/-- The token that comes next is a free one, or the first that no slot has. -/
theorem nextToken_cases (t : Table α) :
    (t.free = [] ∧ t.nextToken = t.slots.size) ∨ ∃ rest, t.free = t.nextToken :: rest := by
  cases hfree : t.free with
  | nil => exact .inl ⟨rfl, by rw [nextToken, hfree]; rfl⟩
  | cons token rest => exact .inr ⟨rest, by rw [nextToken, hfree]; rfl⟩

/-- **The token that comes next is not in use.** -/
theorem Sound.get?_nextToken {t : Table α} (ht : t.Sound) : t.get? t.nextToken = none := by
  rcases t.nextToken_cases with ⟨-, hnext⟩ | ⟨rest, hfree⟩
  · rw [hnext]
    exact get?_of_size_le (Nat.le_refl _)
  · exact (ht.vacant _ (hfree ▸ List.mem_cons_self)).2

theorem Sound.nextToken_le {t : Table α} (ht : t.Sound) : t.nextToken ≤ t.slots.size := by
  rcases t.nextToken_cases with ⟨-, hnext⟩ | ⟨rest, hfree⟩
  · exact Nat.le_of_eq hnext
  · exact Nat.le_of_lt (ht.vacant _ (hfree ▸ List.mem_cons_self)).1

/-- A filled slot holds what was put in, and no other slot changes. -/
theorem get?_fill {t : Table α} {token : Nat} (h : token ≤ t.slots.size) (x : α) (other : Nat) :
    (t.fill token x).get? other = if other = token then some x else t.get? other := by
  unfold fill
  by_cases hlt : token < t.slots.size
  · rw [if_pos hlt]
    show ((t.slots.setIfInBounds token (some x))[other]?).join = _
    rw [Array.getElem?_setIfInBounds]
    by_cases hother : other = token
    · rw [if_pos hother.symm, if_pos hlt, if_pos hother]
      rfl
    · rw [if_neg (Ne.symm hother), if_neg hother]
      rfl
  · have htoken : token = t.slots.size := Nat.le_antisymm h (Nat.le_of_not_lt hlt)
    rw [if_neg hlt]
    show ((t.slots.push (some x))[other]?).join = _
    rw [Array.getElem?_push, htoken]
    split <;> rfl

theorem size_fill (t : Table α) (token : Nat) (x : α) :
    t.slots.size ≤ (t.fill token x).slots.size := by
  unfold fill
  split
  · exact Nat.le_of_eq Array.size_setIfInBounds.symm
  · show _ ≤ (t.slots.push (some x)).size
    rw [Array.size_push]
    exact Nat.le_succ _

/-- What can come of inserting. -/
inductive InsertTurn (t : Table α) (make : Nat → Except SystemError α) :
    Except SystemError (Option Nat) × Table α → Prop
  /-- the table is full -/
  | full (enough : t.limit ≤ t.live) : InsertTurn t make (.ok none, t)
  /-- there is room, but the entry could not be made -/
  | failed {e : SystemError} (room : t.live < t.limit) (made : make t.nextToken = .error e) :
      InsertTurn t make (.error e, t)
  /-- the entry stands under the next token -/
  | inserted {x : α} {u : Table α} (room : t.live < t.limit) (made : make t.nextToken = .ok x)
      (sound : t.Sound → u.Sound)
      (entries : t.Sound → ∀ token, u.get? token =
        if token = t.nextToken then some x else t.get? token) :
      InsertTurn t make (.ok (some t.nextToken), u)

/-- **Each insertion is one of these.** -/
theorem insert_turn (t : Table α) (make : Nat → Except SystemError α) :
    t.InsertTurn make (t.insert make) := by
  unfold insert
  by_cases hfull : t.limit ≤ t.live
  · rw [if_pos hfull]
    exact .full hfull
  · have hroom : t.live < t.limit := Nat.lt_of_not_le hfull
    rw [if_neg hfull]
    cases hmake : make t.nextToken with
    | error e => exact .failed hroom hmake
    | ok x =>
      -- the free list loses its head, which is the token that was given out
      have hentries : t.Sound → ∀ token,
          ({ t.fill t.nextToken x with free := t.free.tail } : Table α).get? token =
            if token = t.nextToken then some x else t.get? token :=
        fun ht => get?_fill ht.nextToken_le x
      refine .inserted hroom hmake (fun ht => ⟨?_, ht.once.tail⟩) hentries
      intro token htoken
      obtain ⟨hlt, hvacant⟩ := ht.vacant token (List.mem_of_mem_tail htoken)
      refine ⟨Nat.lt_of_lt_of_le hlt (t.size_fill _ x), ?_⟩
      have hne : token ≠ t.nextToken := by
        rintro rfl
        rcases t.nextToken_cases with ⟨hnil, -⟩ | ⟨rest, hcons⟩
        · rw [show t.free.tail = [] by rw [hnil]; rfl] at htoken
          cases htoken
        · have honce := ht.once
          rw [hcons] at honce htoken
          exact (List.nodup_cons.mp honce).1 htoken
      rw [hentries ht, if_neg hne]
      exact hvacant

/-- The token that is removed stands for nothing any more, and no other entry changes. -/
theorem get?_remove (t : Table α) (token other : Nat) :
    (t.remove token).2.get? other = if other = token then none else t.get? other := by
  unfold remove
  cases h : t.get? token with
  | none =>
    by_cases hother : other = token
    · rw [if_pos hother, hother]
      exact h
    · rw [if_neg hother]
  | some x =>
    show ((t.slots.setIfInBounds token none)[other]?).join = _
    rw [Array.getElem?_setIfInBounds]
    by_cases hother : other = token
    · rw [if_pos hother.symm, if_pos hother]
      split <;> rfl
    · rw [if_neg (Ne.symm hother), if_neg hother]
      rfl

theorem get?_remove_self (t : Table α) (token : Nat) : (t.remove token).2.get? token = none := by
  rw [get?_remove, if_pos rfl]

theorem Sound.remove {t : Table α} (ht : t.Sound) (token : Nat) : (t.remove token).2.Sound := by
  have hentries := t.get?_remove token
  unfold Table.remove at hentries ⊢
  cases h : t.get? token with
  | none => exact ht
  | some x =>
    simp only [h] at hentries
    have hsize : (t.slots.setIfInBounds token none).size = t.slots.size := Array.size_setIfInBounds
    constructor
    · refine List.forall_mem_cons.mpr ⟨⟨hsize ▸ lt_size_of_get? h, ?_⟩, ?_⟩
      · rw [hentries, if_pos rfl]
      · intro other hother
        obtain ⟨hlt, hvacant⟩ := ht.vacant other hother
        refine ⟨hsize ▸ hlt, ?_⟩
        rw [hentries]
        split
        · rfl
        · exact hvacant
    · -- a token in use is not among the free ones
      refine List.nodup_cons.mpr ⟨fun hmem => ?_, ht.once⟩
      rw [(ht.vacant token hmem).2] at h
      cases h

end Table

end EchoLoad.Stream

import EchoLoad.Fault

/-!
# Memory and machine words

Counts and sizes are machine words. A sum or a product that is no machine word ends the program where it
was built to check that, and otherwise goes round.

Some lists are made at their full length at once, others grow. Each of their bytes needs an address, and
there are addresses for half of what a machine word can count. A list that needs more is not made, and
neither is one that the system has no memory for; whatever asked for it ends with the program.
-/

namespace EchoLoad

/-- How the program breaks off. -/
inductive Breakdown
  /-- a number is no machine word; this is what was done to get it -/
  | overflow (doing : String)
  /-- a list has more bytes than there are addresses -/
  | unaddressable
  /-- the system has no memory for so many bytes -/
  | exhausted (bytes : Nat)
deriving DecidableEq, Repr

namespace Memory

/-- The most bytes that one list can take. -/
def limit : Nat := Nat.pow 2 63 - 1

/-- Whether there are addresses for a list of so many items of a size in bytes. -/
def holds (count size : Nat) : Bool := count * size ≤ limit

/-- The bytes of a counter. -/
def counterSize : Nat := 8

/-- The bytes of what a socket or its peer is known by. -/
def addressSize : Nat := 32

/-- The bytes of what a thread is known by. -/
def threadSize : Nat := 24

/-- The bytes of what the system tells about a socket that became ready. -/
def eventSize : Nat := 12

end Memory

/-- What a program runs on. -/
structure Machine where
  /-- whether numbers that are no machine words go round -/
  wraps : Bool
  /-- whether the system has memory for so many bytes -/
  grants : Nat → Bool

namespace Machine

variable (m : Machine)

/-- The machine word that a sum or a product comes to. -/
def word (doing : String) (n : Nat) : Except Breakdown Nat :=
  if n < UInt64.size || m.wraps then .ok (n % UInt64.size) else .error (.overflow doing)

/-- Ask for the memory of a list of so many items of a size in bytes. An empty list needs none. -/
def reserve (count size : Nat) : Except Breakdown Unit :=
  if !Memory.holds count size then .error .unaddressable
  else if count * size = 0 || m.grants (count * size) then .ok ()
  else .error (.exhausted (count * size))

theorem word_of_lt {n : Nat} (doing : String) (h : n < UInt64.size) : m.word doing n = .ok n := by
  rw [word, if_pos (by simp [h]), Nat.mod_eq_of_lt h]

theorem word_of_wraps (doing : String) (n : Nat) (h : m.wraps = true) :
    m.word doing n = .ok (n % UInt64.size) := if_pos (by simp [h])

theorem word_of_ge {n : Nat} (doing : String) (h : UInt64.size ≤ n) (hwraps : m.wraps = false) :
    m.word doing n = .error (.overflow doing) := if_neg (by simp [hwraps, h])

theorem eq_of_word {doing : String} {n k : Nat} (h : m.word doing n = .ok k) : k = n % UInt64.size := by
  unfold word at h
  split at h
  next => exact (Except.ok.inj h).symm
  next => cases h

/-- A list for which there is memory has its addresses. -/
theorem holds_of_reserve {count size : Nat} (h : m.reserve count size = .ok ()) :
    count * size ≤ Memory.limit := by
  unfold reserve at h
  split at h
  next => cases h
  next hholds => simpa [Memory.holds] using hholds

theorem reserve_of_gt {count size : Nat} (h : Memory.limit < count * size) :
    m.reserve count size = .error .unaddressable := if_pos (by simp [Memory.holds, h])

theorem reserve_of_le {count size : Nat} (h : count * size ≤ Memory.limit) :
    m.reserve count size =
      if count * size = 0 || m.grants (count * size) then .ok () else .error (.exhausted (count * size)) :=
  if_neg (by simp [Memory.holds, h])

end Machine

/-- A list that is being made, and how many items there is room for. -/
structure Growing (α : Type) where
  items : Array α
  room : Nat

namespace Growing

variable {α : Type} {m : Machine} {size : Nat} {g g' : Growing α} {a : α}

/-- An empty list with room for so many items of a size in bytes. -/
def ofRoom (m : Machine) (size room : Nat) : Except Breakdown (Growing α) :=
  (m.reserve room size).map fun _ => ⟨#[], room⟩

/-- Add an item. A list without room gets room for twice as many items, and for four at least. -/
def push (m : Machine) (size : Nat) (g : Growing α) (a : α) : Except Breakdown (Growing α) :=
  if g.items.size < g.room then .ok ⟨g.items.push a, g.room⟩
  else (m.reserve (max (2 * g.room) 4) size).map fun _ => ⟨g.items.push a, max (2 * g.room) 4⟩

/-- There is room for the items, and the room has addresses. -/
structure Sound (size : Nat) (g : Growing α) : Prop where
  size_le : g.items.size ≤ g.room
  room_le : g.room * size ≤ Memory.limit

theorem ofRoom_sound {room : Nat} (h : ofRoom m size room = .ok g) :
    g.Sound size ∧ g.items = #[] ∧ g.room = room := by
  unfold ofRoom at h
  cases hreserve : m.reserve room size with
  | error c =>
    rw [hreserve] at h
    cases h
  | ok _ =>
    rw [hreserve] at h
    cases h
    exact ⟨⟨Nat.zero_le _, m.holds_of_reserve hreserve⟩, rfl, rfl⟩

/-- While there is room, an item is added and the room stays. -/
theorem push_of_lt (h : g.items.size < g.room) :
    g.push m size a = .ok ⟨g.items.push a, g.room⟩ := if_pos h

theorem room_of_push_error {c : Breakdown} (h : g.push m size a = .error c) :
    g.room ≤ g.items.size := by
  by_cases hroom : g.items.size < g.room
  · rw [push_of_lt hroom] at h
    cases h
  · exact Nat.le_of_not_lt hroom

theorem push_sound (hg : g.Sound size) (h : g.push m size a = .ok g') :
    g'.Sound size ∧ g'.items = g.items.push a ∧ g.room ≤ g'.room := by
  unfold push at h
  split at h
  next hroom =>
    cases h
    exact ⟨⟨by rw [Array.size_push]; exact hroom, hg.room_le⟩, rfl, Nat.le_refl _⟩
  next hfull =>
    have hsize := hg.size_le
    cases hreserve : m.reserve (max (2 * g.room) 4) size with
    | error c =>
      rw [hreserve] at h
      cases h
    | ok _ =>
      rw [hreserve] at h
      cases h
      have hmore : g.items.size + 1 ≤ max (2 * g.room) 4 ∧ g.room ≤ max (2 * g.room) 4 := by omega
      exact ⟨⟨Array.size_push _ ▸ hmore.1, m.holds_of_reserve hreserve⟩, rfl, hmore.2⟩

end Growing

/-- Why a port was not started. -/
inductive StartError
  /-- the system refused something -/
  | system (error : SystemError)
  /-- memory does not hold what the port needs -/
  | oversized {c : Breakdown}
deriving DecidableEq, Repr

end EchoLoad

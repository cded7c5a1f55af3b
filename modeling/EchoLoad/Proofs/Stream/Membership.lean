import EchoLoad.Proofs.Stream.Table
import EchoLoad.Stream.Member

/-!
# What a token stands for

Tokens are given again when their connections are gone, so what a token stands for is a matter of the
history of the table: the connection that was given it last, unless it was removed since (`Stands`).

> `Table.serveAll_members`: whatever was called, a table finds under each token what the token stands for,
> never has more connections than its limit, and answers each call accordingly.

Which of the unused tokens a connection is given is of no importance (`insertUnder`). So what is proved here
is proved of all ways to choose them; that of `Table.insert` is one (`insert_eq`).
-/

namespace EchoLoad.Stream

namespace Member

variable {α : Type} {m : Member α} {interest : Interest} {token : Nat}

theorem enter_refused {e : SystemError} (h : m.interest ≠ some interest) :
    m.enter interest (some e) token = .error e := if_neg h

/-- The system tells it already, or does not refuse to. -/
theorem enter_told {refusal : Option SystemError} (h : m.interest = some interest ∨ refusal = none) :
    m.enter interest refusal token = .ok { m with token := token, interest := some interest } := by
  unfold enter setInterest
  rcases h with h | rfl
  · rw [if_pos h, ← h]
  · split
    next h => rw [← show m.interest = some interest from h]
    next => rfl

end Member

namespace Table

variable {α : Type} {limit token : Nat} {history : List (Exchange α)} {t u : Table (Member α)}

/-! ## Any unused token -/

/-- A table in which an entry stands under a token, whichever that is. -/
def occupy (t : Table α) (token : Nat) (x : α) : Table α :=
  { t with
    slots := (t.slots ++ Array.replicate (token + 1 - t.slots.size) none).setIfInBounds token (some x)
    free := t.free.erase token }

/-- Insert a connection under a token that is given for it. -/
def insertUnder (t : Table α) (token : Nat) (make : Nat → Except SystemError α) :
    Except SystemError (Option Nat) × Table α :=
  if t.limit ≤ t.live then (.ok none, t)
  else
    match make token with
    | .error e => (.error e, t)
    | .ok x => (.ok (some token), t.occupy token x)

theorem size_occupy (t : Table α) (token : Nat) (x : α) :
    (t.occupy token x).slots.size = max t.slots.size (token + 1) := by
  show ((t.slots ++ Array.replicate _ none).setIfInBounds token (some x)).size = _
  rw [Array.size_setIfInBounds, Array.size_append, Array.size_replicate]
  omega

theorem get?_occupy (t : Table α) (token : Nat) (x : α) (other : Nat) :
    (t.occupy token x).get? other = if other = token then some x else t.get? other := by
  show (((t.slots ++ Array.replicate _ none).setIfInBounds token (some x))[other]?).join = _
  rw [Array.getElem?_setIfInBounds]
  by_cases hother : other = token
  · have hroom : token < (t.slots ++ Array.replicate (token + 1 - t.slots.size) none).size := by
      rw [Array.size_append, Array.size_replicate]
      omega
    rw [if_pos hother.symm, if_pos hroom, if_pos hother]
    rfl
  · rw [if_neg (Ne.symm hother), if_neg hother, Array.getElem?_append]
    split
    next => rfl
    next hnew =>
      -- the slots that come in between are empty
      rw [get?_of_size_le (Nat.le_of_not_lt hnew), Array.getElem?_replicate]
      split <;> rfl

theorem Sound.occupy {t : Table α} (ht : t.Sound) (token : Nat) (x : α) : (t.occupy token x).Sound where
  vacant := by
    intro other hother
    obtain ⟨hne, hfree⟩ := ht.once.mem_erase_iff.mp hother
    obtain ⟨hlt, hvacant⟩ := ht.vacant other hfree
    rw [size_occupy, get?_occupy, if_neg hne]
    exact ⟨Nat.lt_of_lt_of_le hlt (Nat.le_max_left ..), hvacant⟩
  once := ht.once.erase token

theorem live_occupy_le (t : Table α) (token : Nat) (x : α) : (t.occupy token x).live ≤ t.live + 1 := by
  have hsize : token < (t.slots ++ Array.replicate (token + 1 - t.slots.size) none).size := by
    rw [Array.size_append, Array.size_replicate]
    omega
  have hpadded : (t.slots ++ Array.replicate (token + 1 - t.slots.size) (none : Option α)).countP
      Option.isSome = t.live := by
    rw [Array.countP_append, Array.countP_replicate]
    rfl
  show ((t.slots ++ Array.replicate _ none).setIfInBounds token (some x)).countP Option.isSome ≤ _
  rw [Array.setIfInBounds, dif_pos hsize, Array.countP_set hsize, hpadded]
  exact Nat.add_le_add (Nat.sub_le ..) (Nat.le_refl 1)

/-- A table that takes the token that was freed last, or a new one, takes an unused one. -/
theorem insert_eq {t : Table α} (ht : t.Sound) (make : Nat → Except SystemError α) :
    t.insert make = t.insertUnder t.nextToken make := by
  have hfill (x : α) : ({ t.fill t.nextToken x with free := t.free.tail } : Table α) =
      t.occupy t.nextToken x := by
    unfold fill occupy
    -- a new token is just past the slots, a freed one lies among them
    rcases t.nextToken_cases with ⟨hfree, hnext⟩ | ⟨rest, hfree⟩
    · have hpush : (t.slots ++ Array.replicate 1 none).setIfInBounds t.slots.size (some x) =
          t.slots.push (some x) := by
        rw [← Array.toList_inj]
        simp
      rw [hnext, if_neg (Nat.lt_irrefl _), hfree, Nat.add_sub_cancel_left, hpush]
      rfl
    · have hlt : t.nextToken < t.slots.size := (ht.vacant _ (hfree ▸ List.mem_cons_self)).1
      have htail : t.free.tail = t.free.erase t.nextToken := by
        rw [hfree, List.tail_cons, List.erase_cons_head]
      rw [if_pos hlt, htail, Nat.sub_eq_zero_of_le hlt, Array.replicate_zero, Array.append_empty]
  unfold insert insertUnder
  split
  next => rfl
  next => cases hmake : make t.nextToken with
    | error e => rfl
    | ok x => exact congrArg (Prod.mk _) (hfill x)

/-! ## Removal -/

theorem remove_found (t : Table α) (token : Nat) : (t.remove token).1 = t.get? token := by
  unfold remove
  cases t.get? token with
  | none => rfl
  | some x => rfl

theorem limit_remove (t : Table α) (token : Nat) : (t.remove token).2.limit = t.limit := by
  unfold remove
  cases t.get? token with
  | none => rfl
  | some x => rfl

theorem live_remove_le (t : Table α) (token : Nat) : (t.remove token).2.live ≤ t.live := by
  unfold remove
  cases hfound : t.get? token with
  | none => exact Nat.le_refl _
  | some x =>
    show (t.slots.setIfInBounds token none).countP Option.isSome ≤ _
    rw [Array.setIfInBounds, dif_pos (lt_size_of_get? hfound), Array.countP_set]
    exact Nat.sub_le ..

/-! ## The tokens in use -/

/-- The tokens that stand for something. -/
def tokens (t : Table α) : List Nat := (List.range t.slots.size).filter fun k => (t.get? k).isSome

theorem mem_tokens {t : Table α} {token : Nat} : token ∈ t.tokens ↔ (t.get? token).isSome = true := by
  rw [tokens, List.mem_filter, List.mem_range, and_iff_right_iff_imp]
  intro hsome
  obtain ⟨x, hx⟩ := Option.isSome_iff_exists.mp hsome
  exact lt_size_of_get? hx

theorem nodup_tokens (t : Table α) : t.tokens.Nodup := List.nodup_range.filter _

theorem length_tokens (t : Table α) : t.tokens.length = t.live := by
  have hslots : t.slots.toList = (List.range t.slots.size).map t.get? := by
    refine List.ext_getElem (by rw [List.length_map, List.length_range, Array.length_toList]) ?_
    intro k hk _
    rw [List.getElem_map, List.getElem_range, get?, Array.getElem?_eq_getElem (by simpa using hk)]
    rfl
  rw [tokens, live, ← Array.countP_toList, hslots, List.countP_map, List.countP_eq_length_filter]
  rfl

/-! ## Calls -/

/-- Carry out a call, in which a connection is given a certain token. -/
def serveUnder (t : Table (Member α)) (token : Nat) : Call α → Answer α × Table (Member α)
  | .insert m interest refusal =>
    let (outcome, t) := t.insertUnder token (m.enter interest refusal)
    (.inserted outcome, t)
  | c => t.serve c

theorem serve_eq (ht : t.Sound) (c : Call α) : t.serve c = t.serveUnder t.nextToken c := by
  cases c with
  | insert m interest refusal =>
    show (let (outcome, t) := t.insert _; (Answer.inserted outcome, t)) = _
    rw [insert_eq ht]
    rfl
  | get token => rfl
  | remove token => rfl
  | clear => rfl

/-- What can come of a call. -/
inductive Turn (t : Table (Member α)) (token : Nat) : Call α → Answer α × Table (Member α) → Prop
  | full {m : Member α} {interest : Interest} {refusal : Option SystemError}
    (enough : t.limit ≤ t.live) :
    Turn t token (.insert m interest refusal) (.inserted (.ok none), t)
  | refused {m : Member α} {interest : Interest} {e : SystemError} (room : t.live < t.limit)
    (asked : m.interest ≠ some interest) :
    Turn t token (.insert m interest (some e)) (.inserted (.error e), t)
  | inserted {m : Member α} {interest : Interest} {refusal : Option SystemError}
    (room : t.live < t.limit) (told : m.interest = some interest ∨ refusal = none) :
    Turn t token (.insert m interest refusal)
      (.inserted (.ok (some token)),
        t.occupy token { m with token := token, interest := some interest })
  | found (other : Nat) : Turn t token (.get other) (.found (t.get? other), t)
  | removed (other : Nat) :
    Turn t token (.remove other) (.removed ((t.get? other).map (·.peer)), (t.remove other).2)
  | cleared : Turn t token .clear (.cleared t.live, .new t.limit)

theorem turn_serveUnder (t : Table (Member α)) (token : Nat) (c : Call α) :
    t.Turn token c (t.serveUnder token c) := by
  cases c with
  | insert m interest refusal =>
    show t.Turn token _ (.inserted (t.insertUnder token (m.enter interest refusal)).1,
      (t.insertUnder token (m.enter interest refusal)).2)
    unfold insertUnder
    by_cases hfull : t.limit ≤ t.live
    · rw [if_pos hfull]
      exact .full hfull
    · have hroom : t.live < t.limit := Nat.lt_of_not_le hfull
      rw [if_neg hfull]
      by_cases hasked : m.interest = some interest
      · rw [Member.enter_told (.inl hasked)]
        exact .inserted hroom (.inl hasked)
      · cases refusal with
        | some e =>
          rw [Member.enter_refused hasked]
          exact .refused hroom hasked
        | none =>
          rw [Member.enter_told (.inr rfl)]
          exact .inserted hroom (.inr rfl)
  | get other => exact .found other
  | remove other =>
    show t.Turn token _ (.removed ((t.remove other).1.map (·.peer)), (t.remove other).2)
    rw [remove_found]
    exact .removed other
  | clear => exact .cleared

/-! ## What a token stands for -/

/-- After this exchange a token stands for something else, or for nothing. -/
def Exchange.Concerns (e : Exchange α) (token : Nat) : Prop :=
  e.call = .remove token ∨ e.call = .clear ∨ e.answer = .inserted (.ok (some token))

/-- A token stands for the connection that was given it last, up to its removal. -/
def Stands (history : List (Exchange α)) (token : Nat) (m : Member α) : Prop :=
  ∃ before given interest refusal after,
    history = before ++ ⟨.insert given interest refusal, .inserted (.ok (some token))⟩ :: after ∧
    (∀ e ∈ after, ¬ e.Concerns token) ∧ m = { given with token := token, interest := some interest }

variable {m : Member α} {e : Exchange α}

theorem not_stands_nil : ¬ Stands [] token m := by
  rintro ⟨before, given, interest, refusal, after, hsplit, -⟩
  exact List.append_ne_nil_of_right_ne_nil before (List.cons_ne_nil _ after) hsplit.symm

theorem Stands.token_eq (h : Stands history token m) : m.token = token := by
  obtain ⟨_, _, _, _, _, -, -, rfl⟩ := h
  rfl

/-- One exchange more: either it gave the token to the connection, or the token stood for that before. -/
theorem stands_concat : Stands (history ++ [e]) token m ↔
    (∃ given interest refusal, e = ⟨.insert given interest refusal, .inserted (.ok (some token))⟩ ∧
      m = { given with token := token, interest := some interest }) ∨
    ¬ e.Concerns token ∧ Stands history token m := by
  constructor
  · rintro ⟨before, given, interest, refusal, after, hsplit, hafter, rfl⟩
    -- the last exchange is the insertion itself, or it comes behind it
    rcases List.eq_nil_or_concat after with rfl | ⟨rest, last, rfl⟩
    · obtain ⟨-, hlast⟩ := List.append_inj' hsplit rfl
      cases hlast
      exact .inl ⟨given, interest, refusal, rfl, rfl⟩
    · rw [List.concat_eq_append] at hsplit hafter
      rw [← List.cons_append, ← List.append_assoc] at hsplit
      obtain ⟨rfl, hlast⟩ := List.append_inj' hsplit rfl
      cases hlast
      refine .inr ⟨hafter e (List.mem_append_right _ List.mem_cons_self),
        before, given, interest, refusal, rest, rfl, ?_, rfl⟩
      exact fun other hother => hafter other (List.mem_append_left _ hother)
  · rintro (⟨given, interest, refusal, rfl, rfl⟩ |
      ⟨hquiet, before, given, interest, refusal, after, rfl, hafter, rfl⟩)
    · exact ⟨history, given, interest, refusal, [], rfl, fun e he => absurd he List.not_mem_nil, rfl⟩
    · refine ⟨before, given, interest, refusal, after ++ [e], ?_, ?_, rfl⟩
      · rw [List.append_assoc, List.cons_append]
      · intro other hother
        rcases List.mem_append.mp hother with hother | hother
        · exact hafter other hother
        · rw [List.mem_singleton.mp hother]
          exact hquiet

theorem stands_concat_of_not_concerns (h : ¬ e.Concerns token) :
    Stands (history ++ [e]) token m ↔ Stands history token m := by
  rw [stands_concat]
  constructor
  · rintro (⟨given, interest, refusal, rfl, -⟩ | ⟨-, hstands⟩)
    · exact absurd (.inr (.inr rfl)) h
    · exact hstands
  · exact fun hstands => .inr ⟨h, hstands⟩

/-- What was removed stands for nothing. -/
theorem not_stands_concat (h : e.call = .remove token ∨ e.call = .clear) :
    ¬ Stands (history ++ [e]) token m := by
  rw [stands_concat]
  rintro (⟨given, interest, refusal, rfl, -⟩ | ⟨hquiet, -⟩)
  · rcases h with hcall | hcall <;> cases hcall
  · exact hquiet (h.imp_right .inl)

theorem stands_inserted {given : Member α} {interest : Interest} {refusal : Option SystemError} :
    Stands (history ++ [⟨.insert given interest refusal, .inserted (.ok (some token))⟩]) token m ↔
      m = { given with token := token, interest := some interest } := by
  rw [stands_concat]
  constructor
  · rintro (⟨_, _, _, he, rfl⟩ | ⟨hquiet, -⟩)
    · cases he
      rfl
    · exact absurd (.inr (.inr rfl)) hquiet
  · exact fun hm => .inl ⟨given, interest, refusal, rfl, hm⟩

/-! ## Whole histories -/

/-- What holds of a table with a history. -/
structure Keeps (limit : Nat) (history : List (Exchange α)) (t : Table (Member α)) : Prop where
  sound : t.Sound
  limit_eq : t.limit = limit
  bounded : t.live ≤ limit
  entries : ∀ token m, t.get? token = some m ↔ Stands history token m

theorem keeps_new (limit : Nat) : Keeps limit [] (.new limit : Table (Member α)) where
  sound := sound_new limit
  limit_eq := rfl
  bounded := Nat.zero_le limit
  entries _ _ := iff_of_false nofun not_stands_nil

theorem Turn.sound {c : Call α} {answer : Answer α} (h : t.Turn token c (answer, u)) (ht : t.Sound) :
    u.Sound := by
  cases h with
  | inserted room told => exact ht.occupy _ _
  | removed other => exact ht.remove other
  | cleared => exact sound_new _
  | _ => exact ht

theorem Turn.bounded {c : Call α} {answer : Answer α} (h : t.Turn token c (answer, u))
    (ht : t.live ≤ t.limit) : u.limit = t.limit ∧ u.live ≤ t.limit := by
  cases h with
  | inserted room told => exact ⟨rfl, Nat.le_trans (live_occupy_le t token _) room⟩
  | removed other => exact ⟨limit_remove t other, Nat.le_trans (live_remove_le t other) ht⟩
  | cleared => exact ⟨rfl, Nat.zero_le _⟩
  | _ => exact ⟨rfl, ht⟩

/-- What a call does not concern stays. -/
theorem Turn.kept {c : Call α} {answer : Answer α} (h : t.Turn token c (answer, u)) {other : Nat}
    (hquiet : ¬ Exchange.Concerns ⟨c, answer⟩ other) : u.get? other = t.get? other := by
  cases h with
  | inserted room told =>
    rw [get?_occupy, if_neg]
    rintro rfl
    exact hquiet (.inr (.inr rfl))
  | removed removed =>
    rw [get?_remove, if_neg]
    rintro rfl
    exact hquiet (.inl rfl)
  | cleared => exact absurd (.inr (.inl rfl)) hquiet
  | _ => rfl

/-- What a call removes is gone. -/
theorem Turn.gone {c : Call α} {answer : Answer α} (h : t.Turn token c (answer, u)) {other : Nat}
    (hcall : c = .remove other ∨ c = .clear) : u.get? other = none := by
  rcases hcall with rfl | rfl
  · cases h
    rw [get?_remove, if_pos rfl]
  · cases h
    rfl

theorem Keeps.turn {c : Call α} {answer : Answer α} (h : Keeps limit history t)
    (hturn : t.Turn token c (answer, u)) : Keeps limit (history ++ [⟨c, answer⟩]) u := by
  obtain ⟨hlimit, hlive⟩ := hturn.bounded (h.limit_eq ▸ h.bounded)
  refine ⟨hturn.sound h.sound, hlimit.trans h.limit_eq, h.limit_eq ▸ hlive, fun other m => ?_⟩
  -- a call decides alone what it leaves under a token that it concerns
  by_cases hconcerns : Exchange.Concerns ⟨c, answer⟩ other
  · rcases hconcerns with hremove | hclear | hgiven
    · rw [hturn.gone (.inl hremove)]
      exact iff_of_false nofun (not_stands_concat (.inl hremove))
    · rw [hturn.gone (.inr hclear)]
      exact iff_of_false nofun (not_stands_concat (.inr hclear))
    · obtain rfl : answer = _ := hgiven
      cases hturn with
      | inserted room told => rw [get?_occupy, if_pos rfl, stands_inserted, Option.some_inj, eq_comm]
  · rw [hturn.kept hconcerns, h.entries, stands_concat_of_not_concerns hconcerns]

/-- A table that can come about with a history, where each connection is given some token that is not in
use. -/
inductive Reached (limit : Nat) : List (Exchange α) → Table (Member α) → Prop
  | start : Reached limit [] (.new limit)
  | call {history : List (Exchange α)} {t : Table (Member α)} {token : Nat}
    (before : Reached limit history t) (unused : t.get? token = none) (c : Call α) :
    Reached limit (history ++ [⟨c, (t.serveUnder token c).1⟩]) (t.serveUnder token c).2

theorem Reached.keeps (h : Reached limit history t) : Keeps limit history t := by
  induction h with
  | start => exact keeps_new limit
  | call _ _ c ih => exact ih.turn (turn_serveUnder _ _ c)

theorem map_call_serveAll (calls : List (Call α)) (t : Table (Member α)) :
    (serveAll calls t).1.map (·.call) = calls := by
  induction calls generalizing t with
  | nil => rfl
  | cons c calls ih => exact congrArg (c :: ·) (ih (t.serve c).2)

/-- The tokens that a table gives by itself are not in use either. -/
theorem Reached.serveAll (calls : List (Call α)) (h : Reached limit history t) :
    Reached limit (history ++ (serveAll calls t).1) (serveAll calls t).2 := by
  induction calls generalizing history t with
  | nil =>
    rw [Table.serveAll, List.append_nil]
    exact h
  | cons c calls ih =>
    have hsound : t.Sound := h.keeps.sound
    have hnext := ih (h.call hsound.get?_nextToken c)
    rw [← serve_eq hsound] at hnext
    rw [List.append_assoc] at hnext
    exact hnext

/-- The tokens that stand for something, each once. -/
structure InUse (history : List (Exchange α)) (live : List Nat) : Prop where
  once : live.Nodup
  mem_iff : ∀ token, token ∈ live ↔ ∃ m, Stands history token m

theorem Keeps.inUse (h : Keeps limit history t) : InUse history t.tokens where
  once := t.nodup_tokens
  mem_iff token := by
    rw [mem_tokens, Option.isSome_iff_exists]
    exact exists_congr fun m => h.entries token m

/-- What a table answers to a call, given the tokens in use. -/
inductive Answered (limit : Nat) (history : List (Exchange α)) (live : List Nat) :
    Call α → Answer α → Prop
  | full {m : Member α} {interest : Interest} {refusal : Option SystemError}
    (all : live.length = limit) :
    Answered limit history live (.insert m interest refusal) (.inserted (.ok none))
  | refused {m : Member α} {interest : Interest} {e : SystemError} (room : live.length < limit)
    (asked : m.interest ≠ some interest) :
    Answered limit history live (.insert m interest (some e)) (.inserted (.error e))
  | inserted {m : Member α} {interest : Interest} {refusal : Option SystemError} {token : Nat}
    (room : live.length < limit) (told : m.interest = some interest ∨ refusal = none)
    (unused : token ∉ live) :
    Answered limit history live (.insert m interest refusal) (.inserted (.ok (some token)))
  | found {token : Nat} {m : Member α} (stands : Stands history token m) :
    Answered limit history live (.get token) (.found (some m))
  | missing {token : Nat} (gone : token ∉ live) :
    Answered limit history live (.get token) (.found none)
  | removed {token : Nat} {m : Member α} (stands : Stands history token m) :
    Answered limit history live (.remove token) (.removed (some m.peer))
  | nothing {token : Nat} (gone : token ∉ live) :
    Answered limit history live (.remove token) (.removed none)
  | cleared : Answered limit history live .clear (.cleared live.length)

theorem Keeps.answered {c : Call α} {answer : Answer α} (h : Keeps limit history t)
    (hunused : t.get? token = none) (hturn : t.Turn token c (answer, u)) :
    Answered limit history t.tokens c answer := by
  have hlength := t.length_tokens
  have hbounded := h.bounded
  have hlimit := h.limit_eq
  have hgone {other : Nat} (hnone : t.get? other = none) : other ∉ t.tokens := by
    rw [mem_tokens, hnone]
    exact Bool.false_ne_true
  cases hturn with
  | full enough => exact .full (by omega)
  | refused room asked => exact .refused (by omega) asked
  | inserted room told => exact .inserted (by omega) told (hgone hunused)
  | found other =>
    cases hother : t.get? other with
    | none => exact .missing (hgone hother)
    | some m => exact .found ((h.entries other m).mp hother)
  | removed other =>
    cases hother : t.get? other with
    | none => exact .nothing (hgone hother)
    | some m => exact .removed ((h.entries other m).mp hother)
  | cleared =>
    rw [← hlength]
    exact .cleared

/-- **A table finds under a token what the token stands for.** The calls may come in any order, the system
may refuse what it likes, and a connection may be given any token that is not in use; the tokens that a table
gives by itself are such. At every time each token that stands for a connection stands for one, which knows
it as its own, and there are at most `limit` such tokens. A connection is turned away exactly when there are
as many; then, and when the system refuses, nothing changes. A removal gives the peer of what the token
stands for, and concerns no other token; clearing gives the number of connections and leaves none. -/
theorem serveAll_members (limit : Nat) (calls : List (Call α)) :
    ((serveAll calls (.new limit)).1.map (·.call) = calls ∧
      Reached limit (serveAll calls (.new limit)).1 (serveAll calls (.new limit)).2) ∧
    ∀ history (t : Table (Member α)), Reached limit history t →
      (∀ token m, t.get? token = some m ↔ Stands history token m) ∧
      (∀ token m, Stands history token m → m.token = token) ∧
      ∃ live, InUse history live ∧ live.length = t.live ∧ live.length ≤ limit ∧
        ∀ token c, t.get? token = none →
          let (answer, u) := t.serveUnder token c
          Answered limit history live c answer ∧ (c = .clear → u.live = 0) ∧
          ∀ other,
            (¬ Exchange.Concerns ⟨c, answer⟩ other → u.get? other = t.get? other) ∧
            (c = .remove other ∨ c = .clear → u.get? other = none) := by
  refine ⟨⟨map_call_serveAll calls _, Reached.start.serveAll calls⟩, ?_⟩
  intro history t hreached
  have hkeeps : Keeps limit history t := hreached.keeps
  refine ⟨hkeeps.entries, fun token m hstands => hstands.token_eq, t.tokens, hkeeps.inUse,
    t.length_tokens, ?_, ?_⟩
  · rw [t.length_tokens]
    exact hkeeps.bounded
  · intro token c hunused
    have hturn : t.Turn token c (t.serveUnder token c) := turn_serveUnder t token c
    refine ⟨hkeeps.answered hunused hturn, ?_, fun other => ⟨hturn.kept, hturn.gone⟩⟩
    rintro rfl
    rfl

/-- A connection from some port of the host itself, not yet in a table. -/
def fromPort (port : UInt16) : Member Nat := .new port.toNat ⟨.v4 127 0 0 1, port⟩

/-- There is room for one. The first connection is removed and its token given to the second, for which it
stands then; the first is turned away when it comes again. Under a token that was never used before, say 7,
it is the same. -/
theorem serveAll_members_recycled :
    let first : Call Nat := .insert (fromPort 1) .read none
    let second : Call Nat := .insert (fromPort 2) .read none
    let entered (token : Nat) : Member Nat := ⟨2, ⟨.v4 127 0 0 1, 2⟩, token, some .read⟩
    let run := serveAll [first, .remove 0, second] (.new 1)
    run.2.get? 0 = some (entered 0) ∧ Stands run.1 0 (entered 0) ∧
      (run.2.serveUnder 1 first).1 = .inserted (.ok none) ∧
      Stands [⟨second, .inserted (.ok (some 7))⟩] 7 (entered 7) := by
  intro first second entered run
  obtain ⟨⟨-, hreached⟩, hmembers⟩ := serveAll_members 1 [first, .remove 0, second]
  obtain ⟨hentries, -⟩ := hmembers _ _ hreached
  have hother : Reached 1 [⟨second, .inserted (.ok (some 7))⟩] ((new 1).serveUnder 7 second).2 :=
    Reached.start.call rfl second
  obtain ⟨hentries', -⟩ := hmembers _ _ hother
  exact ⟨rfl, (hentries 0 (entered 0)).mp rfl, rfl, (hentries' 7 (entered 7)).mp rfl⟩

end Table

end EchoLoad.Stream

import EchoLoad.Proofs.Stream.Table
import EchoLoad.Stream.Server

/-!
# What each step does to a server

Workers take turns in any order; what a step does depends on the stage of its worker. `Server.Turn` says
all that can come of a step, with everything that was looked at:

> `Server.turn`: each step of a server is one of the turns.

What a turn does to the workers and to the entries of the table is read off it: a worker that holds a
connection held it before, or has just found it (`Turn.held`), and one that saw it fail has handled a
notice on it (`Turn.failed`); an entry is there until a worker takes its token out of the table
(`Turn.kept`), and a new one is that of a connection just accepted (`Turn.entered`).
-/

namespace EchoLoad.Stream

open Framing

namespace Handling

/-- The token that the worker looked up. -/
def token : Handling → Nat
  | found token _ => token
  | failed token _ => token

/-- The connection that it found there. -/
def number : Handling → Nat
  | found _ number => number
  | failed _ number => number

end Handling

namespace Server

theorem stageOf_setWorker (s : Server) (worker : Nat) (stage : Option Handling) (other : Nat) :
    (s.setWorker worker stage).stageOf other =
      if other = worker ∧ worker < s.workers.size then stage else s.stageOf other := by
  show ((s.workers.setIfInBounds worker stage)[other]?).join = _
  rw [Array.getElem?_setIfInBounds]
  by_cases hother : other = worker
  · subst hother
    by_cases hlt : other < s.workers.size
    · rw [if_pos rfl, if_pos hlt, if_pos ⟨rfl, hlt⟩]
      rfl
    · rw [if_pos rfl, if_neg hlt, if_neg (fun h => hlt h.2), stageOf, Array.getElem?_eq_none]
      exact Nat.le_of_not_lt hlt
  · rw [if_neg (Ne.symm hother), if_neg (fun h => hother h.1)]
    rfl

theorem stageOf_setWorker_self {s : Server} {worker : Nat} (h : worker < s.workers.size)
    (stage : Option Handling) : (s.setWorker worker stage).stageOf worker = stage := by
  rw [stageOf_setWorker, if_pos ⟨rfl, h⟩]

/-- A worker that ends what it does is idle. -/
theorem stageOf_setWorker_none (s : Server) (worker : Nat) :
    (s.setWorker worker none).stageOf worker = none := by
  rw [stageOf_setWorker]
  by_cases hlt : worker < s.workers.size
  · rw [if_pos ⟨rfl, hlt⟩]
  · rw [if_neg (fun h => hlt h.2), stageOf, Array.getElem?_eq_none (Nat.le_of_not_lt hlt)]
    rfl

/-- A connection that is accepted stands under the next token, unless the table is full. -/
theorem accept_table (s : Server) (hs : s.table.Sound) :
    s.accept.table = s.table ∨
      (s.accept.table.Sound ∧ ∀ token, s.accept.table.get? token =
        if token = s.table.nextToken then some s.connections.size else s.table.get? token) := by
  have hinsert := s.table.insert_turn fun _ => .ok s.connections.size
  unfold accept
  dsimp only
  generalize s.table.insert (fun _ => .ok s.connections.size) = inserted at hinsert
  cases hinsert with
  | full enough => exact .inl rfl
  | failed room made => exact .inl rfl
  | inserted room made sound entries =>
    cases made
    exact .inr ⟨sound hs, entries hs⟩

theorem size_accept (s : Server) : s.accept.connections.size = s.connections.size + 1 :=
  Array.size_push _

/-- What comes of a step. -/
inductive Turn (s : Server) : ServerStep → Server → Prop
  /-- the step does not fit the stage of the worker -/
  | unfit {e : ServerStep} : Turn s e s
  /-- a connection is accepted -/
  | accepted : Turn s .accept s.accept
  /-- an idle worker finds a connection under a token -/
  | found {worker token number : Nat} (idle : s.stageOf worker = none)
      (live : s.table.get? token = some number) :
      Turn s (.lookUp worker token) (s.setWorker worker (some (.found token number)))
  /-- there is none -/
  | missed {worker token : Nat} (idle : s.stageOf worker = none)
      (gone : s.table.get? token = none) :
      Turn s (.lookUp worker token) (s.setWorker worker none)
  /-- a worker handles its notice on the connection that it found -/
  | worked {worker token number : Nat} {notice : Notice} {reads : List ReadOutcome}
      {writes : List WriteOutcome} {c : Connection}
      (stage : s.stageOf worker = some (.found token number))
      (connection : s.connections[number]? = some c) :
      Turn s (.work worker notice reads writes)
        (s.putBack worker token number (c.handle s.trigger.readMode s.stats notice reads writes))
  /-- a worker takes the token of a failed connection out of the table -/
  | removed {worker token number : Nat} (stage : s.stageOf worker = some (.failed token number)) :
      Turn s (.remove worker) ({ s with table := (s.table.remove token).2 }.setWorker worker none)

/-- **Each step is a turn.** -/
theorem turn (s : Server) (e : ServerStep) : s.Turn e (s.step e) := by
  cases e with
  | accept => exact .accepted
  | lookUp worker token =>
    cases hstage : s.stageOf worker with
    | some h =>
      simp only [step, hstage]
      exact .unfit
    | none =>
      simp only [step, hstage]
      cases hlive : s.table.get? token with
      | none => exact .missed hstage hlive
      | some number => exact .found hstage hlive
  | work worker notice reads writes =>
    cases hstage : s.stageOf worker with
    | none =>
      simp only [step, hstage]
      exact .unfit
    | some h =>
      cases h with
      | failed token number =>
        simp only [step, hstage]
        exact .unfit
      | found token number =>
        simp only [step, hstage]
        cases hc : s.connections[number]? with
        | none => exact .unfit
        | some c => exact .worked hstage hc
  | remove worker =>
    cases hstage : s.stageOf worker with
    | none =>
      simp only [step, hstage]
      exact .unfit
    | some h =>
      cases h with
      | found token number =>
        simp only [step, hstage]
        exact .unfit
      | failed token number =>
        simp only [step, hstage]
        exact .removed hstage

theorem run_concat (s : Server) (steps : List ServerStep) (e : ServerStep) :
    s.run (steps ++ [e]) = (s.run steps).step e := List.foldl_append

variable {s t : Server} {e : ServerStep}

/-- The stage after handling a notice is one on the same connection. -/
theorem nextStage_eq_some {token number : Nat} {result : Except SystemError Bool} {h : Handling}
    (hs : nextStage token number result = some h) : h = .failed token number := by
  unfold nextStage at hs
  split at hs
  · exact (Option.some.inj hs).symm
  · cases hs

/-- **A worker that holds a connection** held it before, or has just found it under its token. -/
theorem Turn.held (ht : s.Turn e t) {worker : Nat} {h : Handling}
    (hw : t.stageOf worker = some h) :
    (∃ before, s.stageOf worker = some before ∧ before.token = h.token ∧
        before.number = h.number) ∨
      (s.table.get? h.token = some h.number ∧ t.table = s.table) := by
  -- a worker whose stage is not the one that was set
  have hkeeps : s.stageOf worker = some h → ∃ before, s.stageOf worker = some before ∧
      before.token = h.token ∧ before.number = h.number := fun hs => ⟨h, hs, rfl, rfl⟩
  cases ht with
  | unfit => exact .inl (hkeeps hw)
  | accepted => exact .inl (hkeeps hw)
  | @found actor token number idle live =>
    rw [stageOf_setWorker] at hw
    split at hw
    · obtain rfl := Option.some.inj hw
      exact .inr ⟨live, rfl⟩
    · exact .inl (hkeeps hw)
  | @missed actor token idle gone =>
    rw [stageOf_setWorker] at hw
    split at hw
    · cases hw
    · exact .inl (hkeeps hw)
  | @worked actor token number notice reads writes c stage connection =>
    have hw' : (s.setWorker actor (nextStage token number _)).stageOf worker = some h := hw
    rw [stageOf_setWorker] at hw'
    split at hw'
    next hactor =>
      obtain rfl := nextStage_eq_some hw'
      exact .inl ⟨.found token number, hactor.1 ▸ stage, rfl, rfl⟩
    next => exact .inl (hkeeps hw')
  | @removed actor token number stage =>
    rw [stageOf_setWorker] at hw
    split at hw
    · cases hw
    · exact .inl (hkeeps hw)

/-- **A worker that saw a connection fail** did so before, or has just handled a notice on the connection
that it found, and the call said to close it. -/
theorem Turn.failed (ht : s.Turn e t) {worker token number : Nat}
    (hw : t.stageOf worker = some (.failed token number)) :
    s.stageOf worker = some (.failed token number) ∨
      ∃ notice reads writes c, e = .work worker notice reads writes ∧
        s.stageOf worker = some (.found token number) ∧ s.connections[number]? = some c ∧
        (c.handle s.trigger.readMode s.stats notice reads writes).result = .ok true := by
  -- a stage that is set to something else is not that of this worker
  have hset : ∀ {s' : Server} {actor : Nat} {stage : Option Handling},
      (s'.setWorker actor stage).stageOf worker = some (.failed token number) →
        stage ≠ some (.failed token number) → s'.stageOf worker = some (.failed token number) := by
    intro s' actor stage hw hne
    rw [stageOf_setWorker] at hw
    split at hw
    · exact absurd hw hne
    · exact hw
  cases ht with
  | unfit => exact .inl hw
  | accepted => exact .inl hw
  | found idle live => exact .inl (hset hw (by simp))
  | missed idle gone => exact .inl (hset hw (by simp))
  | removed stage => exact .inl (hset hw (by simp))
  | @worked actor token' number' notice reads writes c stage connection =>
    have hw' : (s.setWorker actor (nextStage token' number' _)).stageOf worker =
        some (.failed token number) := hw
    rw [stageOf_setWorker] at hw'
    split at hw'
    next hactor =>
      obtain ⟨rfl, -⟩ := hactor
      unfold nextStage at hw'
      split at hw'
      next hclose =>
        cases hw'
        exact .inr ⟨notice, reads, writes, c, rfl, stage, connection, hclose⟩
      next => cases hw'
    next => exact .inl hw'

/-- An entry of the table is there until a worker takes its token out. -/
theorem Turn.kept (ht : s.Turn e t) (hs : s.table.Sound) {token number : Nat}
    (hlive : s.table.get? token = some number) :
    t.table.get? token = some number ∨
      ∃ worker seen, e = .remove worker ∧ s.stageOf worker = some (.failed token seen) ∧
        t.stageOf worker = none := by
  cases ht with
  | accepted =>
    left
    rcases s.accept_table hs with hsame | ⟨-, hentries⟩
    · rw [hsame]
      exact hlive
    · -- nothing stood under the token that was given out
      have hne : token ≠ s.table.nextToken := by
        rintro rfl
        rw [hs.get?_nextToken] at hlive
        cases hlive
      rw [hentries, if_neg hne]
      exact hlive
  | @removed worker other seen stage =>
    by_cases hother : token = other
    · exact .inr ⟨worker, seen, rfl, hother ▸ stage, stageOf_setWorker_none _ worker⟩
    · left
      show (s.table.remove other).2.get? token = _
      rw [Table.get?_remove, if_neg hother]
      exact hlive
  | unfit => exact .inl hlive
  | found idle live => exact .inl hlive
  | missed idle gone => exact .inl hlive
  | worked stage connection => exact .inl hlive

/-- An entry of the table was there before, or is that of a connection that was just accepted. -/
theorem Turn.entered (ht : s.Turn e t) (hs : s.table.Sound) {token number : Nat}
    (hlive : t.table.get? token = some number) :
    s.table.get? token = some number ∨
      number = s.connections.size ∧ number < t.connections.size := by
  cases ht with
  | accepted =>
    rcases s.accept_table hs with hsame | ⟨-, hentries⟩
    · rw [hsame] at hlive
      exact .inl hlive
    · rw [hentries] at hlive
      split at hlive
      · obtain rfl := Option.some.inj hlive
        exact .inr ⟨rfl, s.size_accept ▸ Nat.lt_succ_self _⟩
      · exact .inl hlive
  | @removed worker other seen stage =>
    left
    have hlive' : (s.table.remove other).2.get? token = some number := hlive
    rw [Table.get?_remove] at hlive'
    split at hlive'
    · cases hlive'
    · exact hlive'
  | unfit => exact .inl hlive
  | found idle live => exact .inl hlive
  | missed idle gone => exact .inl hlive
  | worked stage connection => exact .inl hlive

theorem Turn.table_sound (ht : s.Turn e t) (hs : s.table.Sound) : t.table.Sound := by
  cases ht with
  | accepted =>
    rcases s.accept_table hs with hsame | ⟨hsound, -⟩
    · rw [hsame]
      exact hs
    · exact hsound
  | removed stage => exact hs.remove _
  | unfit => exact hs
  | found idle live => exact hs
  | missed idle gone => exact hs
  | worked stage connection => exact hs

/-- No connection is ever forgotten. -/
theorem Turn.size_le (ht : s.Turn e t) : s.connections.size ≤ t.connections.size := by
  cases ht with
  | accepted => exact s.size_accept ▸ Nat.le_succ _
  | worked stage connection => exact Nat.le_of_eq Array.size_setIfInBounds.symm
  | unfit => exact Nat.le_refl _
  | found idle live => exact Nat.le_refl _
  | missed idle gone => exact Nat.le_refl _
  | removed stage => exact Nat.le_refl _

end Server

end EchoLoad.Stream

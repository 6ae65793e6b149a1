import Chip8.Proofs.LoopIterations

/-!
Runs that are cut. To cut a run is to tell it to stop, to cancel the keypad, to wait until the loop
has been left, to clear the cancellation and to begin a new run under a fresh panel. Keys, ticks
and steps of the loop may come at any time meanwhile.

A history with cuts goes beside the same history without them. There a cut is no more than the end
of a pause, if there was one; but a run that is blocked when it is told to stop still takes a key
that has come, and this step counts as one of the iterations. Both histories leave the same
machine, unless a pause finds them at different places of the loop when a key has come: a wait
that was interrupted is taken up again only by the next iteration, and a paused run makes none.
-/

namespace Chip8

namespace Machine

variable {σ : Type}

def uncancelled (m : Machine σ) : Machine σ :=
  m.onKeypad Keypad.clearCancellation

theorem uncancelled_eq {m : Machine σ} (h : m.keypad.cancelled = false) : m.uncancelled = m := by
  obtain ⟨_, _, _, _, _, ⟨_, _, _, cancelled⟩, _, _, _, _, _, _⟩ := m
  cases h
  rfl

theorem deliver_uncancelled (key : UInt8) (m : Machine σ) :
    deliver key m.uncancelled = match deliver key m with
      | .ok _ m' => .ok () m'.uncancelled
      | .error fault m' => .error fault m'.uncancelled := by
  have hsame : m.uncancelled.mode = m.mode := rfl
  cases hmode : m.mode with
  | running =>
      rw [hmode] at hsame
      rw [deliver_of_running hsame, deliver_of_running hmode]
  | waitingForKey x =>
      rw [hmode] at hsame
      by_cases hx : x.toNat < 16
      · rw [deliver_of_lt hsame hx, deliver_of_lt hmode hx]
        rfl
      · rw [deliver_of_le hsame hx, deliver_of_le hmode hx]

end Machine

namespace Keypad

theorem press_clearCancellation (k : Keypad) (key : UInt8) :
    (k.press key).clearCancellation = k.clearCancellation.press key := by
  unfold press
  split
  · dsimp only
    have hcatches : k.clearCancellation.catches key = k.catches key := rfl
    rw [hcatches]
    split <;> rfl
  · rfl

theorem release_clearCancellation (k : Keypad) (key : UInt8) :
    (k.release key).clearCancellation = k.clearCancellation.release key := by
  unfold release
  split <;> rfl

end Keypad

namespace Run

variable {σ : Type} [Display σ]

/-- A cut in which nothing else happens. -/
def shutdown : List Event :=
  [.panel .stop, .cancel, .advance, .advance, .clearCancellation, .start .initial]

/-- Whether an event may come next in a history with cuts. -/
def cuttable (c : Run σ) : Event → Bool
  | .advance | .press _ | .release _ | .tick | .setDelay _ | .setSound _ => true
  | .panel _ => !c.panel.stopped
  | .cancel => c.panel.stopped
  | .clearCancellation => c.phase == .ended
  | .start panel => c.phase == .ended && !c.machine.keypad.cancelled && panel == .initial
  | .step => false

/-- Whether some events make a history with cuts. None is under way at the end. -/
def cuttableThrough (c : Run σ) : List Event → Bool
  | [] => !c.panel.stopped
  | e :: rest => c.cuttable e && (c.occur e).cuttableThrough rest

/-- Whether the next step of the loop takes the key for which it was blocked. -/
def takesKey (c : Run σ) : Bool :=
  match c.phase with
  | .blocked _ => c.machine.keypad.pending.isSome
  | _ => false

/-- What is left of an event in the history without the cuts. -/
def uncut (c : Run σ) : Event → List Event
  | .panel .stop | .cancel | .clearCancellation => []
  | .start _ => [.panel .resume]
  | .advance => if c.panel.stopped && !c.takesKey then [] else [.advance]
  | e => [e]

def uncutAll (c : Run σ) : List Event → List Event
  | [] => []
  | e :: rest => c.uncut e ++ (c.occur e).uncutAll rest

/-- Whether two runs are at the same place of the loop, with the same request for a step. -/
def alike (u c : Run σ) : Bool :=
  u.phase == c.phase && u.panel.stepRequested == c.panel.stepRequested

/-- Whether an iteration that both runs make finds no key under a pause, unless they stand
alike. -/
def agreeOnKey (u c : Run σ) : Event → Bool
  | .advance =>
      (c.uncut .advance).isEmpty || !u.panel.paused || u.machine.keypad.pending.isNone ||
        u.alike c
  | _ => true

/-- The same all along a history with cuts and the one without them beside it. -/
def agreeOnKeys (u c : Run σ) : List Event → Bool
  | [] => true
  | e :: rest => u.agreeOnKey c e && agreeOnKeys (u.occurAll (c.uncut e)) (c.occur e) rest

/-- Where a run without cuts can stand beside one with cuts. -/
inductive Place (u c : Run σ) : Prop
  | top (hu : u.phase = .ready) (hc : c.phase = .ready)
      (hrequest : u.panel.stepRequested = c.panel.stepRequested)
  | inside (stepping : Bool) (hu : u.WaitsIn stepping)
      (hc : c.phase = .ready ∨ ∃ stepping, c.phase = .blocked stepping)
  | left (hu : u.Placed) (hc : c.phase = .ended) (hstopped : c.panel.stopped = true)
  | down (hu : ∃ cause, u.phase = .crashed cause) (hc : ∃ cause, c.phase = .crashed cause)

structure Beside (u c : Run σ) : Prop where
  machine : u.machine = c.machine.uncancelled
  goesOn : u.panel.stopped = false
  paused : u.panel.paused = c.panel.paused
  requested : u.panel.stepRequested = true → u.panel.paused = true
  requestedCut : c.panel.stepRequested = true → c.panel.paused = true
  cancelled : c.panel.stopped = false → c.machine.keypad.cancelled = false
  place : Place u c

/-! The loop cancels no keypad. -/

omit [Display σ] in
theorem receive_cancelled (r : Run σ) (stepping : Bool) (key : UInt8) :
    (r.receive stepping key).machine.keypad.cancelled = r.machine.keypad.cancelled := by
  unfold receive
  split
  · rw [complete_machine]
  · cases hmode : r.machine.mode with
    | running =>
        rw [Machine.deliver_of_running hmode]
        dsimp only
        rw [complete_machine]
    | waitingForKey x =>
        by_cases hx : x.toNat < 16
        · rw [Machine.deliver_of_lt hmode hx]
          dsimp only
          rw [complete_machine]
          rfl
        · rw [Machine.deliver_of_le hmode hx]

theorem advance_cancelled (r : Run σ) :
    r.advance.machine.keypad.cancelled = r.machine.keypad.cancelled := by
  cases hphase : r.phase with
  | ended | crashed cause => rw [advance_of_isOver (by simp [isOver, hphase])]
  | blocked stepping =>
      rw [advance_of_blocked hphase]
      cases hpending : r.machine.keypad.pending with
      | none => rw [takeFromKeypad_of_none hpending]
      | some key =>
          rw [takeFromKeypad_of_some hpending]
          exact receive_cancelled {r with machine.keypad.pending := none} stepping key
  | ready =>
      cases hbegins : r.begins with
      | true =>
          rw [(advance_follows hbegins).machine_eq]
          exact Machine.afterwards_step_cancelled r.machine
      | false =>
          rcases advance_of_not_begins hphase hbegins with hsame | hended
          · rw [hsame]
          · rw [hended]

omit [Display σ] in
/-- Two runs with the same machine that take the same key, and hold it back or not alike. -/
theorem receive_beside {u c : Run σ} {s s' : Bool} (hmachine : u.machine = c.machine.uncancelled)
    (hgoes : (!s && u.panel.paused) = (!s' && c.panel.paused)) (key : UInt8) :
    (u.receive s key).machine = (c.receive s' key).machine.uncancelled ∧
      ((u.receive s key).phase = .ready ∧ (c.receive s' key).phase = .ready ∨
        (∃ cause, (u.receive s key).phase = .crashed cause) ∧
          ∃ cause, (c.receive s' key).phase = .crashed cause) := by
  unfold receive
  rw [hgoes, hmachine, Machine.deliver_uncancelled]
  split
  · refine ⟨?_, .inl ⟨complete_phase _, complete_phase _⟩⟩
    rw [complete_machine, complete_machine]
    rfl
  · cases Machine.deliver key c.machine with
    | ok _ m =>
        refine ⟨?_, .inl ⟨complete_phase _, complete_phase _⟩⟩
        rw [complete_machine, complete_machine]
    | error fault m => exact ⟨rfl, .inr ⟨⟨_, rfl⟩, _, rfl⟩⟩

omit [Display σ] in
theorem Beside.pending_eq {u c : Run σ} (h : u.Beside c) :
    u.machine.keypad.pending = c.machine.keypad.pending := by
  rw [h.machine]
  rfl

omit [Display σ] in
theorem Beside.not_cancelled {u c : Run σ} (h : u.Beside c) :
    u.machine.keypad.cancelled = false := by
  rw [h.machine]
  rfl

omit [Display σ] in
theorem Beside.unasked {u c : Run σ} (h : u.Beside c) (hpaused : u.panel.paused = false) :
    u.panel.stepRequested = c.panel.stepRequested := by
  have hpausedCut : c.panel.paused = false := h.paused.symm.trans hpaused
  rw [Panel.unasked h.requested hpaused, Panel.unasked h.requestedCut hpausedCut]

/-- After steps of the loop only the machines and the places have to be compared. -/
theorem Beside.moved {u c u' : Run σ} (h : u.Beside c) (hu : u' = u ∨ u' = u.advance)
    (hmachine : u'.machine = c.advance.machine.uncancelled) (hplace : u'.Place c.advance) :
    u'.Beside c.advance := by
  have hswitches : u'.panel.switches = u.panel.switches := by
    rcases hu with rfl | rfl
    · rfl
    · exact advance_switches u
  have hrequested : u'.panel.stepRequested = true → u.panel.stepRequested = true := by
    rcases hu with rfl | rfl
    · exact id
    · exact advance_requested
  obtain ⟨hstopped, hpaused⟩ := Prod.mk.inj hswitches
  obtain ⟨hstoppedCut, hpausedCut⟩ := Prod.mk.inj (advance_switches c)
  refine ⟨hmachine, hstopped.trans h.goesOn, ?_, ?_, ?_, ?_, hplace⟩
  · rw [hpaused, h.paused, hpausedCut]
  · intro hasked
    exact hpaused.trans (h.requested (hrequested hasked))
  · intro hasked
    exact hpausedCut.trans (h.requestedCut (advance_requested hasked))
  · intro hgoesOn
    rw [advance_cancelled]
    exact h.cancelled (hstoppedCut.symm.trans hgoesOn)

/-- Both runs take the key that has come to a wait. -/
theorem Beside.takes {u c : Run σ} {s s' : Bool} {key : UInt8} (h : u.Beside c)
    (hu : u.WaitsIn s) (hpending : c.machine.keypad.pending = some key)
    (hc : c.advance = c.takeFromKeypad s')
    (hgoes : (!s && u.panel.paused) = (!s' && c.panel.paused))
    (hrequest : u.panel.stepRequested = c.panel.stepRequested) : u.advance.Beside c.advance := by
  have hadvance := advance_of_blocked hu.1
  obtain ⟨-, -, hasked⟩ := Panel.unpublished_inj (takeFromKeypad_unpublished u s)
  obtain ⟨-, -, haskedCut⟩ := Panel.unpublished_inj (takeFromKeypad_unpublished c s')
  rw [← hadvance] at hasked
  rw [← hc] at haskedCut
  have hmachine : {u.machine with keypad.pending := none} =
      Machine.uncancelled {c.machine with keypad.pending := none} := by
    rw [h.machine]
    rfl
  obtain ⟨hsame, hplaces⟩ := receive_beside
    (u := {u with machine.keypad.pending := none}) (c := {c with machine.keypad.pending := none})
    hmachine hgoes key
  rw [← takeFromKeypad_of_some (h.pending_eq.trans hpending), ← hadvance,
    ← takeFromKeypad_of_some hpending, ← hc] at hsame hplaces
  refine h.moved (.inr rfl) hsame ?_
  rcases hplaces with ⟨hready, hreadyCut⟩ | ⟨hdown, hdownCut⟩
  · exact .top hready hreadyCut (hasked.trans (hrequest.trans haskedCut.symm))
  · exact .down hdown hdownCut

/-- Both runs begin the same cycle. -/
theorem Beside.advance_begins {u c : Run σ} (h : u.Beside c) (hgoesOn : c.panel.stopped = false)
    (hbegins : u.begins = true) (hbeginsCut : c.begins = true) : u.advance.Beside c.advance := by
  have hmachine : u.machine = c.machine :=
    h.machine.trans (Machine.uncancelled_eq (h.cancelled hgoesOn))
  have hcancelled : c.advance.machine.keypad.cancelled = false :=
    (advance_cancelled c).trans (h.cancelled hgoesOn)
  have hfollows := advance_follows hbegins
  have hfollowsCut := advance_follows hbeginsCut
  have hmoved : u.advance.machine = c.advance.machine := by
    rw [hfollows.machine_eq, hfollowsCut.machine_eq, hmachine]
  refine h.moved (.inr rfl) (hmoved.trans (Machine.uncancelled_eq hcancelled).symm) ?_
  rw [hmachine] at hfollows
  by_cases hstarved : c.machine.Starved
  · have hstarvedU : u.machine.Starved := by rwa [hmachine]
    obtain ⟨hsame, hblocked⟩ := advance_of_starved hbegins hstarvedU h.not_cancelled
    obtain ⟨-, hblockedCut⟩ := advance_of_starved hbeginsCut hstarved (h.cancelled hgoesOn)
    refine .inside u.panel.paused ⟨hblocked, ?_, ?_⟩ (.inr ⟨_, hblockedCut⟩)
    · rw [hsame]
      exact hstarvedU.1
    · rw [hsame]
      exact (Option.or_eq_none_iff.1 hstarvedU.2).1
  · obtain ⟨-, -, hasked⟩ := Panel.unpublished_inj (advance_unpublished hbegins h.requested)
    obtain ⟨-, -, haskedCut⟩ :=
      Panel.unpublished_inj (advance_unpublished hbeginsCut h.requestedCut)
    cases hstep : Machine.step c.machine with
    | error fault m =>
        rw [hstep] at hfollows hfollowsCut
        exact .down ⟨_, hfollows.2⟩ ⟨_, hfollowsCut.2⟩
    | ok cycle m =>
        rw [hstep] at hfollows hfollowsCut
        cases cycle with
        | waiting =>
            obtain ⟨rfl, hstarves⟩ := Machine.eq_of_step_waiting hstep
            exact absurd hstarves hstarved
        | executed i | resumed key =>
            exact .top hfollows.2 hfollowsCut.2 (hasked.trans haskedCut.symm)

theorem Beside.advance_top {u c : Run σ} (h : u.Beside c) (hu : u.phase = .ready)
    (hc : c.phase = .ready) (hrequest : u.panel.stepRequested = c.panel.stepRequested)
    (hgoesOn : c.panel.stopped = false) : u.advance.Beside c.advance := by
  have hidles : u.panel.idles = c.panel.idles := by
    unfold Panel.idles
    rw [h.paused, hrequest]
  cases hidle : c.panel.idles with
  | true =>
      have hsame : u.advance = u := advance_of_idles hu h.goesOn (hidles.trans hidle)
      have hsameCut : c.advance = c := advance_of_idles hc hgoesOn hidle
      rw [hsame, hsameCut]
      exact h
  | false =>
      have hbegins : u.begins = true := by simp [begins, hu, h.goesOn, hidles, hidle]
      have hbeginsCut : c.begins = true := by simp [begins, hc, hgoesOn, hidle]
      exact h.advance_begins hgoesOn hbegins hbeginsCut

/-- Without a key the run in the wait stays there, and the other one does no more than to enter
the wait. -/
theorem Beside.advance_starved {u c : Run σ} {s : Bool} (h : u.Beside c) (hu : u.WaitsIn s)
    (hc : c.phase = .ready ∨ ∃ s', c.phase = .blocked s') (hgoesOn : c.panel.stopped = false)
    (hpending : c.machine.keypad.pending = none) : u.advance.Beside c.advance := by
  have hmachine : u.machine = c.machine :=
    h.machine.trans (Machine.uncancelled_eq (h.cancelled hgoesOn))
  have hblocks : c.machine.keypad.blocks = true := by
    simp [Keypad.blocks, hpending, h.cancelled hgoesOn]
  have hstarved : c.machine.Starved := by
    obtain ⟨-, hmode, hheld⟩ := hu
    rw [hmachine] at hmode hheld
    exact ⟨hmode, (Machine.transit_of_not_held hheld).trans hpending⟩
  have hsame : u.advance = u := advance_of_blocks hu.1 (by rwa [hmachine])
  have hstays : c.advance.machine = c.machine ∧
      (c.advance.phase = .ready ∨ ∃ s', c.advance.phase = .blocked s') := by
    rcases hc with hready | ⟨s', hblocked⟩
    · cases hidle : c.panel.idles with
      | true =>
          rw [advance_of_idles hready hgoesOn hidle]
          exact ⟨rfl, .inl hready⟩
      | false =>
          have hbegins : c.begins = true := by simp [begins, hready, hgoesOn, hidle]
          obtain ⟨hstill, hblocked⟩ := advance_of_starved hbegins hstarved (h.cancelled hgoesOn)
          exact ⟨hstill, .inr ⟨_, hblocked⟩⟩
    · rw [advance_of_blocks hblocked hblocks]
      exact ⟨rfl, .inr ⟨s', hblocked⟩⟩
  obtain ⟨hstill, hplace⟩ := hstays
  refine h.moved (.inr rfl) ?_ ?_
  · rw [hsame, hstill]
    exact h.machine
  · rw [hsame]
    exact .inside s hu hplace

/-- A run that is not paused takes the key that has come, also from before the wait. -/
theorem Beside.advance_of_waiting {u c : Run σ} {s : Bool} (h : u.Beside c) (hu : u.WaitsIn s)
    (hready : c.phase = .ready) (hgoesOn : c.panel.stopped = false)
    (hpaused : c.panel.paused = false) : c.advance = c.takeFromKeypad false := by
  obtain ⟨-, hmode, hheld⟩ := hu
  rw [h.machine] at hmode hheld
  have hnone : c.machine.heldKey = none := hheld
  have hbegins : c.begins = true := by simp [begins, hready, hgoesOn, Panel.idles, hpaused]
  rw [advance_eq_begin hbegins, hpaused]
  unfold begin
  cases hwaits : c.machine.mode with
  | running => exact absurd hwaits hmode
  | waitingForKey x =>
      simp only [hnone]
      rfl

/-- Both runs are in the wait, and under a pause they stand alike. -/
theorem Beside.takes_blocked {u c : Run σ} {s s' : Bool} {key : UInt8} (h : u.Beside c)
    (hu : u.WaitsIn s) (hblocked : c.phase = .blocked s')
    (hpending : c.machine.keypad.pending = some key)
    (halike : u.panel.paused = true →
      u.phase = c.phase ∧ u.panel.stepRequested = c.panel.stepRequested) :
    u.advance.Beside c.advance := by
  have hadvance := advance_of_blocked hblocked
  cases hpaused : u.panel.paused with
  | true =>
      obtain ⟨hsame, hrequest⟩ := halike hpaused
      have hsteps : Phase.blocked s = .blocked s' := hu.1.symm.trans (hsame.trans hblocked)
      cases hsteps
      refine h.takes hu hpending hadvance ?_ hrequest
      rw [h.paused]
  | false =>
      refine h.takes hu hpending hadvance ?_ (h.unasked hpaused)
      rw [← h.paused, hpaused, Bool.and_false, Bool.and_false]

/-- The run without cuts is in a wait, the other one in it too or at the top before it. -/
theorem Beside.advance_inside {u c : Run σ} {s : Bool} (h : u.Beside c) (hu : u.WaitsIn s)
    (hc : c.phase = .ready ∨ ∃ s', c.phase = .blocked s') (hgoesOn : c.panel.stopped = false)
    (halike : u.panel.paused = true → u.machine.keypad.pending ≠ none →
      u.phase = c.phase ∧ u.panel.stepRequested = c.panel.stepRequested) :
    u.advance.Beside c.advance := by
  cases hpending : c.machine.keypad.pending with
  | none => exact h.advance_starved hu hc hgoesOn hpending
  | some key =>
      have hcome : u.machine.keypad.pending ≠ none := by
        rw [h.pending_eq, hpending]
        exact Option.some_ne_none key
      rcases hc with hready | ⟨s', hblocked⟩
      · have hpaused : u.panel.paused = false := by
          cases hpaused : u.panel.paused with
          | false => rfl
          | true => cases hready.symm.trans ((halike hpaused hcome).1.symm.trans hu.1)
        have hpausedCut : c.panel.paused = false := h.paused.symm.trans hpaused
        have hadvance := h.advance_of_waiting hu hready hgoesOn hpausedCut
        refine h.takes hu hpending hadvance ?_ (h.unasked hpaused)
        rw [hpaused, hpausedCut, Bool.and_false, Bool.and_false]
      · exact h.takes_blocked hu hblocked hpending fun hpaused => halike hpaused hcome

/-- A step of a run that was told to stop. It has a counterpart only when it takes a key. -/
theorem Beside.advance_stopped {u c : Run σ} (h : u.Beside c) (hstopped : c.panel.stopped = true)
    (halike : c.takesKey = true → u.panel.paused = true →
      u.phase = c.phase ∧ u.panel.stepRequested = c.panel.stepRequested) :
    (u.occurAll (c.uncut .advance)).Beside c.advance := by
  have hleaves : c.takesKey = false → c.advance.machine = c.machine → u.Place c.advance →
      (u.occurAll (c.uncut .advance)).Beside c.advance := by
    intro htakes hstill hplace
    have hnothing : c.uncut .advance = [] := by simp [uncut, hstopped, htakes]
    rw [hnothing]
    refine h.moved (.inl rfl) ?_ hplace
    change u.machine = _
    rw [hstill]
    exact h.machine
  have hstays : c.advance.panel.stopped = true :=
    (congrArg Prod.fst (advance_switches c)).trans hstopped
  cases h.place with
  | top hu hc hrequest =>
      have hended := advance_of_stopped hc hstopped
      refine hleaves (by simp [takesKey, hc]) (by rw [hended]) (.left (.inl hu) ?_ hstays)
      rw [hended]
  | left hu hc _ =>
      have hsame : c.advance = c := advance_of_isOver (by simp [isOver, hc])
      refine hleaves (by simp [takesKey, hc]) (by rw [hsame]) (.left hu ?_ hstays)
      rw [hsame, hc]
  | down hu hc =>
      obtain ⟨cause, hcrashed⟩ := hc
      have hsame : c.advance = c := advance_of_isOver (by simp [isOver, hcrashed])
      refine hleaves (by simp [takesKey, hcrashed]) (by rw [hsame]) (.down hu ⟨cause, ?_⟩)
      rw [hsame, hcrashed]
  | inside s hu hc =>
      rcases hc with hready | ⟨s', hblocked⟩
      · have hended := advance_of_stopped hready hstopped
        refine hleaves (by simp [takesKey, hready]) (by rw [hended])
          (.left (.inr ⟨s, hu⟩) ?_ hstays)
        rw [hended]
      · have hadvance := advance_of_blocked hblocked
        cases hpending : c.machine.keypad.pending with
        | none =>
            rw [takeFromKeypad_of_none hpending] at hadvance
            refine hleaves (by simp [takesKey, hblocked, hpending]) (by rw [hadvance]) ?_
            cases hcancelled : c.machine.keypad.cancelled with
            | true => exact .left (.inr ⟨s, hu⟩) (by simp [hadvance, hcancelled]) hstays
            | false => exact .inside s hu (.inr ⟨s', by simp [hadvance, hcancelled]⟩)
        | some key =>
            have htakes : c.takesKey = true := by simp [takesKey, hblocked, hpending]
            have hiteration : c.uncut .advance = [.advance] := by simp [uncut, htakes]
            rw [hiteration]
            exact h.takes_blocked hu hblocked hpending (halike htakes)

theorem Beside.advance {u c : Run σ} (h : u.Beside c) (hagree : u.agreeOnKey c .advance = true) :
    (u.occurAll (c.uncut .advance)).Beside c.advance := by
  have halike : c.uncut .advance = [.advance] → u.panel.paused = true →
      u.machine.keypad.pending ≠ none →
        u.phase = c.phase ∧ u.panel.stepRequested = c.panel.stepRequested := by
    intro hiteration hpaused hcome
    simpa [agreeOnKey, hiteration, hpaused, hcome, alike] using hagree
  cases hstopped : c.panel.stopped with
  | true =>
      refine h.advance_stopped hstopped fun htakes hpaused => ?_
      refine halike (by simp [uncut, htakes]) hpaused ?_
      rw [h.pending_eq]
      intro hnone
      simp only [takesKey, hnone, Option.isSome_none] at htakes
      split at htakes <;> cases htakes
  | false =>
      have hiteration : c.uncut .advance = [.advance] := by simp [uncut, hstopped]
      rw [hiteration]
      change u.advance.Beside c.advance
      cases h.place with
      | top hu hc hrequest => exact h.advance_top hu hc hrequest hstopped
      | inside s hu hc => exact h.advance_inside hu hc hstopped (halike hiteration)
      | left _ _ hleft => exact absurd (hleft.symm.trans hstopped) (by decide)
      | down hu hc =>
          obtain ⟨cause, hcrashed⟩ := hu
          obtain ⟨causeCut, hcrashedCut⟩ := hc
          have hsame : u.advance = u := advance_of_isOver (by simp [isOver, hcrashed])
          have hsameCut : c.advance = c := advance_of_isOver (by simp [isOver, hcrashedCut])
          rw [hsame, hsameCut]
          exact h

omit [Display σ] in
/-- What happens to the machine beside the loop happens to both alike. -/
theorem Beside.onMachine {u c : Run σ} (h : u.Beside c) (change : Machine σ → Machine σ)
    (hcommutes : (change c.machine).uncancelled = change c.machine.uncancelled)
    (hcancelled : (change c.machine).keypad.cancelled = c.machine.keypad.cancelled)
    (hmode : (change u.machine).mode = u.machine.mode)
    (hheld : (change u.machine).heldKey = u.machine.heldKey) :
    (u.onMachine change).Beside (c.onMachine change) := by
  have hwaits : ∀ s, u.WaitsIn s → (u.onMachine change).WaitsIn s := by
    rintro s ⟨hphase, hwaiting, hnone⟩
    refine ⟨hphase, ?_, hheld.trans hnone⟩
    change (change u.machine).mode ≠ .running
    rwa [hmode]
  refine ⟨?_, h.goesOn, h.paused, h.requested, h.requestedCut, ?_, ?_⟩
  · change change u.machine = (change c.machine).uncancelled
    rw [hcommutes, h.machine]
  · intro hgoesOn
    exact hcancelled.trans (h.cancelled hgoesOn)
  · cases h.place with
    | top hu hc hrequest => exact .top hu hc hrequest
    | inside s hu hc => exact .inside s (hwaits s hu) hc
    | down hu hc => exact .down hu hc
    | left hu hc hstopped =>
        refine .left ?_ hc hstopped
        rcases hu with hready | ⟨s, hwaiting⟩
        · exact .inl hready
        · exact .inr ⟨s, hwaits s hwaiting⟩

omit [Display σ] in
theorem Place.of_ended {u c : Run σ} (h : u.Place c) (hended : c.phase = .ended) :
    u.Placed ∧ c.panel.stopped = true := by
  cases h with
  | left hu _ hstopped => exact ⟨hu, hstopped⟩
  | top _ hc _ => cases hc.symm.trans hended
  | inside _ _ hc =>
      rcases hc with hready | ⟨s', hblocked⟩
      · cases hready.symm.trans hended
      · cases hblocked.symm.trans hended
  | down _ hc =>
      obtain ⟨cause, hcrashed⟩ := hc
      cases hcrashed.symm.trans hended

omit [Display σ] in
theorem Place.withPanels {u c : Run σ} (h : u.Place c) {p p' : Panel}
    (hrequest : u.panel.stepRequested = c.panel.stepRequested → p.stepRequested = p'.stepRequested)
    (hstopped : c.panel.stopped = true → p'.stopped = true) :
    Place {u with panel := p} {c with panel := p'} := by
  cases h with
  | top hu hc hsame => exact .top hu hc (hrequest hsame)
  | inside s hu hc => exact .inside s hu hc
  | left hu hc hstops => exact .left hu hc (hstopped hstops)
  | down hu hc => exact .down hu hc

omit [Display σ] in
theorem Beside.act {u c : Run σ} (h : u.Beside c) {action : Panel.Action}
    (hstop : action ≠ .stop) : (u.act (.panel action)).Beside (c.act (.panel action)) := by
  have hpaused := h.paused
  cases action with
  | stop => exact absurd rfl hstop
  | pause =>
      exact ⟨h.machine, h.goesOn, rfl, fun _ => rfl, fun _ => rfl, h.cancelled,
        h.place.withPanels id id⟩
  | resume =>
      exact ⟨h.machine, h.goesOn, rfl, nofun, nofun, h.cancelled,
        h.place.withPanels (fun _ => rfl) id⟩
  | stepOnce =>
      cases hpausedCut : c.panel.paused with
      | false =>
          rw [hpausedCut] at hpaused
          simp only [Run.act, Panel.perform, hpaused, hpausedCut]
          exact h
      | true =>
          rw [hpausedCut] at hpaused
          simp only [Run.act, Panel.perform, hpaused, hpausedCut, if_true]
          exact ⟨h.machine, h.goesOn, rfl, fun _ => rfl, fun _ => rfl, h.cancelled,
            h.place.withPanels (fun _ => rfl) id⟩

omit [Display σ] in
/-- What a cut does before the loop is left: it changes nothing that the program could notice. -/
theorem Beside.cutting {u c : Run σ} (h : u.Beside c) {change : Keypad → Keypad}
    (hsame : ∀ k, (change k).clearCancellation = k.clearCancellation)
    (hstopped : c.panel.stopped = true) : u.Beside (c.onMachine fun m => m.onKeypad change) := by
  refine ⟨?_, h.goesOn, h.paused, h.requested, h.requestedCut, ?_, ?_⟩
  · rw [h.machine]
    change _ = (c.machine.onKeypad change).uncancelled
    unfold Machine.uncancelled Machine.onKeypad
    rw [hsame]
  · intro hgoesOn
    exact absurd (hstopped.symm.trans hgoesOn) (by decide)
  · cases h.place with
    | top hu hc hrequest => exact .top hu hc hrequest
    | inside s hu hc => exact .inside s hu hc
    | left hu hc _ => exact .left hu hc hstopped
    | down hu hc => exact .down hu hc

omit [Display σ] in
theorem Beside.stop {u c : Run σ} (h : u.Beside c) : u.Beside (c.act (.panel .stop)) :=
  ⟨h.machine, h.goesOn, h.paused, h.requested, h.requestedCut, nofun,
    h.place.withPanels id fun _ => rfl⟩

omit [Display σ] in
/-- The new run begins where the old one left the machine, and the pause is over. -/
theorem Beside.restart {u c : Run σ} (h : u.Beside c) (hended : c.phase = .ended)
    (hcancelled : c.machine.keypad.cancelled = false) :
    (u.act (.panel .resume)).Beside (start c.machine .initial) := by
  refine ⟨h.machine, h.goesOn, rfl, nofun, nofun, fun _ => hcancelled, ?_⟩
  rcases (h.place.of_ended hended).1 with hready | ⟨s, hwaits⟩
  · exact .top hready rfl rfl
  · exact .inside s hwaits (.inl rfl)

theorem Beside.occur {u c : Run σ} (h : u.Beside c) {e : Event} (he : c.cuttable e = true)
    (hagree : u.agreeOnKey c e = true) : (u.occurAll (c.uncut e)).Beside (c.occur e) := by
  cases e with
  | advance => exact h.advance hagree
  | step => cases he
  | press key =>
      refine h.onMachine (fun m => m.onKeypad fun k => k.press key) ?_ ?_ rfl rfl
      · exact congrArg (fun k => {c.machine with keypad := k})
          (Keypad.press_clearCancellation c.machine.keypad key)
      · exact Keypad.press_cancelled _ key
  | release key =>
      refine h.onMachine (fun m => m.onKeypad fun k => k.release key) ?_ ?_ rfl rfl
      · exact congrArg (fun k => {c.machine with keypad := k})
          (Keypad.release_clearCancellation c.machine.keypad key)
      · exact Keypad.release_cancelled _ key
  | tick => exact h.onMachine Machine.tick rfl rfl rfl rfl
  | setDelay value => exact h.onMachine (fun m => {m with timers.delay := value}) rfl rfl rfl rfl
  | setSound value => exact h.onMachine (fun m => {m with timers.sound := value}) rfl rfl rfl rfl
  | panel action =>
      cases action with
      | stop => exact h.stop
      | pause | resume | stepOnce => exact h.act nofun
  | cancel => exact h.cutting (fun _ => rfl) he
  | clearCancellation =>
      have hended : c.phase = .ended := eq_of_beq he
      exact h.cutting (fun _ => rfl) (h.place.of_ended hended).2
  | start panel =>
      simp only [cuttable, Bool.and_eq_true, beq_iff_eq, Bool.not_eq_true'] at he
      obtain ⟨⟨hended, hcancelled⟩, rfl⟩ := he
      exact h.restart hended hcancelled

theorem Beside.occurAll {u c : Run σ} (h : u.Beside c) {events : List Event}
    (hcuts : c.cuttableThrough events = true) (hkeys : agreeOnKeys u c events = true) :
    (c.occurAll events).machine = (u.occurAll (c.uncutAll events)).machine := by
  induction events generalizing u c with
  | nil =>
      have hgoesOn : c.panel.stopped = false := by simpa [cuttableThrough] using hcuts
      exact (h.machine.trans (Machine.uncancelled_eq (h.cancelled hgoesOn))).symm
  | cons e rest ih =>
      obtain ⟨he, hcuts⟩ := Bool.and_eq_true_iff.1 hcuts
      obtain ⟨hagree, hkeys⟩ := Bool.and_eq_true_iff.1 hkeys
      rw [uncutAll, occurAll_append]
      exact ih (h.occur he hagree) hcuts hkeys

theorem uncut_unpaused {u : Run σ} (c : Run σ) (hpaused : u.panel.paused = false) {e : Event}
    (he : e ≠ .panel .pause) : (u.occurAll (c.uncut e)).panel.paused = false := by
  cases e with
  | advance =>
      simp only [uncut]
      split
      · exact hpaused
      · exact (congrArg Prod.snd (advance_switches u)).trans hpaused
  | start panel => rfl
  | step | press key | release key | cancel | clearCancellation | tick | setDelay value
  | setSound value => exact hpaused
  | panel action =>
      cases action with
      | pause => exact absurd rfl he
      | resume => rfl
      | stop => exact hpaused
      | stepOnce =>
          have hignored : u.panel.perform .stepOnce = u.panel := by
            simp [Panel.perform, hpaused]
          exact (congrArg Panel.paused hignored).trans hpaused

/-- Only a pause can make keys be treated differently. -/
theorem agreeOnKeys_of_unpaused {u c : Run σ} (hpaused : u.panel.paused = false)
    {events : List Event} (hevents : .panel .pause ∉ events) : agreeOnKeys u c events = true := by
  induction events generalizing u c with
  | nil => rfl
  | cons e rest ih =>
      rw [List.mem_cons, not_or] at hevents
      have hagree : u.agreeOnKey c e = true := by
        unfold agreeOnKey
        split
        · simp [hpaused]
        · rfl
      have hrest := ih (c := c.occur e) (uncut_unpaused c hpaused (Ne.symm hevents.1)) hevents.2
      exact Bool.and_eq_true_iff.2 ⟨hagree, hrest⟩

/-! One cut by itself. It can be made wherever the loop stands, and all that it can do to the
machine is to take a key that has come. -/

def stopping (c : Run σ) : Run σ :=
  (c.act (.panel .stop)).act (.keypad .cancel)

theorem shutdown_of_ended {c : Run σ} (hgoesOn : c.panel.stopped = false)
    (hended : c.stopping.advance.advance.phase = .ended) :
    c.cuttableThrough shutdown = true ∧
      c.occurAll shutdown = start c.stopping.advance.advance.machine.uncancelled .initial := by
  constructor
  · simp only [shutdown, cuttableThrough, cuttable, hgoesOn, Run.occur, Bool.not_false,
      Bool.true_and, Bool.and_eq_true, beq_iff_eq, Bool.not_eq_true', and_true]
    exact ⟨rfl, hended, ⟨hended, rfl⟩, rfl⟩
  · rfl

omit [Display σ] in
theorem receive_ready {r : Run σ} (stepping : Bool) (key : UInt8)
    (hregister : ∀ x, r.machine.mode = .waitingForKey x → x.toNat < 16) :
    (r.receive stepping key).phase = .ready := by
  unfold receive
  split
  · exact complete_phase _
  · cases hmode : r.machine.mode with
    | running =>
        rw [Machine.deliver_of_running hmode]
        exact complete_phase _
    | waitingForKey x =>
        rw [Machine.deliver_of_lt hmode (hregister x hmode)]
        exact complete_phase _

theorem Placed.shutdown {c : Run σ} (h : c.Placed) (hgoesOn : c.panel.stopped = false)
    (hcancelled : c.machine.keypad.cancelled = false)
    (hregister : ∀ x, c.machine.mode = .waitingForKey x → x.toNat < 16) :
    c.cuttableThrough shutdown = true ∧
      c.occurAll shutdown =
        start (if c.takesKey then c.advance.machine else c.machine) .initial := by
  have hmachine : c.machine = c.stopping.machine.uncancelled :=
    (Machine.uncancelled_eq hcancelled).symm
  have hleft : c.takesKey = false → c.stopping.advance = {c.stopping with phase := .ended} →
      c.cuttableThrough Run.shutdown = true ∧ c.occurAll Run.shutdown =
        start (if c.takesKey then c.advance.machine else c.machine) .initial := by
    intro htakes hended
    have hagain : c.stopping.advance.advance = c.stopping.advance :=
      advance_of_isOver (by rw [hended]; rfl)
    have hcut := shutdown_of_ended hgoesOn (by rw [hagain, hended])
    rw [hagain, hended] at hcut
    rw [htakes, if_neg (by decide), hmachine]
    exact hcut
  rcases h with hready | ⟨s, hblocked, -, -⟩
  · exact hleft (by simp [takesKey, hready]) (advance_of_stopped (r := c.stopping) hready rfl)
  · have hadvance : c.stopping.advance = c.stopping.takeFromKeypad s := advance_of_blocked hblocked
    cases hpending : c.machine.keypad.pending with
    | none =>
        refine hleft (by simp [takesKey, hblocked, hpending]) ?_
        rw [hadvance, takeFromKeypad_of_none (r := c.stopping) hpending]
        rfl
    | some key =>
        have htakes : c.takesKey = true := by simp [takesKey, hblocked, hpending]
        rw [takeFromKeypad_of_some (r := c.stopping) hpending] at hadvance
        have hround : c.stopping.advance.phase = .ready := by
          rw [hadvance]
          exact receive_ready s key hregister
        have hended := advance_of_stopped hround
          ((congrArg Prod.fst (advance_switches c.stopping)).trans rfl)
        have hsame : c.advance.machine = c.stopping.advance.machine.uncancelled := by
          have htaken : {c.machine with keypad.pending := none} =
              Machine.uncancelled {c.stopping.machine with keypad.pending := none} :=
            congrArg (fun m : Machine σ => {m with keypad.pending := none}) hmachine
          have hgoes : (!s && c.panel.paused) = (!s && c.stopping.panel.paused) := rfl
          rw [advance_of_blocked hblocked, takeFromKeypad_of_some hpending, hadvance]
          exact (receive_beside (u := {c with machine.keypad.pending := none})
            (c := {c.stopping with machine.keypad.pending := none}) htaken hgoes key).1
        have hcut := shutdown_of_ended hgoesOn (by rw [hended])
        rw [hended] at hcut
        rw [htakes, if_pos rfl, hsame]
        exact hcut

/-- Cuts are not noticed by the program, as long as keys that come under a pause are treated
alike, and so when nobody pauses. Nor does any one cut lose or double a key: it leaves the machine
as it is, with its wait if it waits, or makes the one step that takes the key. -/
theorem cuts_unnoticed (m : Machine σ) (hcancelled : m.keypad.cancelled = false) :
    let r := start m .initial
    (∀ events, r.cuttableThrough events = true → agreeOnKeys r r events = true →
      (r.occurAll events).machine = (r.occurAll (r.uncutAll events)).machine) ∧
    (∀ events, .panel .pause ∉ events → agreeOnKeys r r events = true) ∧
    (∀ c : Run σ, c.Placed → c.panel.stopped = false → c.machine.keypad.cancelled = false →
      (∀ x, c.machine.mode = .waitingForKey x → x.toNat < 16) →
        c.cuttableThrough shutdown = true ∧ c.occurAll shutdown =
          start (if c.takesKey then c.advance.machine else c.machine) .initial) := by
  intro r
  refine ⟨?_, ?_, ?_⟩
  · intro events hcuts hkeys
    have hstart : r.Beside r :=
      ⟨(Machine.uncancelled_eq hcancelled).symm, rfl, rfl, nofun, nofun, fun _ => hcancelled,
        .top rfl rfl rfl⟩
    exact hstart.occurAll hcuts hkeys
  · intro events hevents
    exact agreeOnKeys_of_unpaused rfl hevents
  · intro c hplaced hgoesOn hlistens hregister
    exact hplaced.shutdown hgoesOn hlistens hregister

/-- A wait that is cut twice, once before the key comes and once under a pause after it. -/
theorem cuts_unnoticed_twice :
    let m := (loaded [0xF3, 0x0A, 0x12, 0x02]).machine
    let r := start m .initial
    let events : List Event := [.advance, .advance] ++ shutdown ++
      [.press 5, .advance, .panel .pause, .advance] ++ shutdown ++ [.advance]
    (r.occurAll events).machine.registers.get 3 = 5 ∧
      (r.occurAll events).machine = (r.occurAll (r.uncutAll events)).machine := by
  intro m r events
  refine ⟨by decide +kernel, ?_⟩
  exact (cuts_unnoticed m (by decide +kernel)).1 events (by decide +kernel) (by decide +kernel)

/-- A wait that is cut, and then a key under a pause. The run without the cut holds the key back,
because it is in the wait; the new run makes no iteration and leaves the key to the keypad. -/
theorem cut_noticed_under_pause :
    let m := (loaded [0xF3, 0x0A, 0x12, 0x02]).machine
    let r := start m .initial
    let events : List Event := [.advance, .advance] ++ shutdown ++
      [.panel .pause, .press 5, .advance]
    m.keypad.cancelled = false ∧ r.cuttableThrough events = true ∧
    r.uncutAll events =
      [.advance, .advance, .panel .resume, .panel .pause, .press 5, .advance] ∧
    (r.occurAll events).machine.keypad.pending = some 5 ∧
    (r.occurAll (r.uncutAll events)).machine.keypad.pending = none ∧
    (r.occurAll (r.uncutAll events)).machine.heldKey = some 5 ∧
    (r.occurAll events).machine ≠ (r.occurAll (r.uncutAll events)).machine := by
  intro m r events
  have hcut : (r.occurAll events).machine.keypad.pending = some 5 := by decide +kernel
  have huncut : (r.occurAll (r.uncutAll events)).machine.keypad.pending = none := by
    decide +kernel
  refine ⟨by decide +kernel, by decide +kernel, by decide +kernel, hcut, huncut,
    by decide +kernel, ?_⟩
  intro hsame
  rw [hsame, huncut] at hcut
  cases hcut

end Run

end Chip8

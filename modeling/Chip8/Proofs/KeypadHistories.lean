import Chip8.Keypad.Command
import Mathlib.Data.List.Induction

/-!
Histories of a keypad. What a keypad answers can be read off what was asked of it before: a key is
held if it was pressed and not released since, and a wait is answered with the first fresh press
since it began. The waiting flag and the caught press of a keypad are just what it needs to know of
its history.
-/

namespace Chip8.Keypad

namespace Command

/-- Whether a request presses or releases a key, alone or with all others. -/
def concerns (key : UInt8) : Command → Bool
  | .press k | .release k => k == key
  | .reset => true
  | .isDown _ | .beginWait | .isWaiting | .take | .await | .awaitFor _ | .cancel
  | .clearCancellation | .isCancelled => false

/-- Whether a request takes the press that was caught. -/
def takes : Command → Bool
  | .take | .await | .awaitFor _ => true
  | _ => false

end Command

/-- The keypad after some requests, the earliest first. -/
def performAll (k : Keypad) (requests : List Command) : Keypad :=
  requests.foldl (fun k c => (k.perform c).2) k

/-- What it answers to them. -/
def replies (k : Keypad) : List Command → List Reply
  | [] => []
  | c :: rest => (k.perform c).1 :: (k.perform c).2.replies rest

/-- A new keypad after a history of requests. -/
abbrev after (history : List Command) : Keypad :=
  initial.performAll history

/-- What was done to a key last in a history. -/
def lastDone (history : List Command) (key : UInt8) : Option Command :=
  (history.filter (Command.concerns key)).getLast?

/-- The key that a request presses after some history, if the keypad has it and it was up. -/
def freshPress (history : List Command) : Command → Option UInt8
  | .press key =>
      if key.toNat < 16 ∧ lastDone history key ≠ some (.press key) then some key else none
  | _ => none

/-- The keys that some requests press after some history when they are up, in order. -/
def freshPresses (history : List Command) : List Command → List UInt8
  | [] => []
  | c :: rest => (freshPress history c).toList ++ freshPresses (history ++ [c]) rest

/-- A history falls into all up to the latest begin of a wait and all since, and there was no reset
since. -/
structure WaitSince (history upTo since : List Command) : Prop where
  split : history = upTo ++ since
  begun : upTo.getLast? = some .beginWait
  latest : .beginWait ∉ since
  standing : .reset ∉ since

/-- A keypad gave away a key in answer to one of some requests. -/
def GaveKey (k : Keypad) (requests : List Command) : Prop :=
  ∃ key, .key (some key) ∈ k.replies requests

/-! One request. -/

theorem isDown_of_le (k : Keypad) {key : UInt8} (h : 16 ≤ key.toNat) : k.isDown key = false := by
  simp [isDown, Nat.not_lt.2 h]

/-- Whether a key is held once some key was given a new state. -/
theorem isDown_set (k : Keypad) {j key : UInt8} (hj : j.toNat < 16) (hkey : key.toNat < 16)
    (down : Bool) :
    isDown {k with keys := k.keys.set j.toNat down} key =
      if j = key then down else k.isDown key := by
  simp only [isDown, hkey, dif_pos, Vector.getElem_set]
  by_cases heq : j = key
  · rw [if_pos (congrArg UInt8.toNat heq), if_pos heq]
  · rw [if_neg fun h => heq (UInt8.toNat_inj.1 h), if_neg heq]

theorem isDown_press (k : Keypad) (j : UInt8) {key : UInt8} (hkey : key.toNat < 16) :
    (k.press j).isDown key = if j = key then true else k.isDown key := by
  unfold press
  split
  · next hj =>
      rw [← isDown_set k hj hkey true]
      dsimp only
      split <;> rfl
  · next hj =>
      have hne : j ≠ key := fun heq => hj (heq ▸ hkey)
      rw [if_neg hne]

theorem isDown_release (k : Keypad) (j : UInt8) {key : UInt8} (hkey : key.toNat < 16) :
    (k.release j).isDown key = if j = key then false else k.isDown key := by
  unfold release
  split
  · next hj => exact isDown_set k hj hkey false
  · next hj =>
      have hne : j ≠ key := fun heq => hj (heq ▸ hkey)
      rw [if_neg hne]

/-- A request that concerns a key leaves it held just if it presses it. -/
theorem perform_isDown (k : Keypad) (c : Command) {key : UInt8} (hkey : key.toNat < 16) :
    (k.perform c).2.isDown key =
      if c.concerns key then decide (c = .press key) else k.isDown key := by
  cases c with
  | press j =>
      rw [perform, isDown_press k j hkey]
      by_cases heq : j = key <;> simp [Command.concerns, heq]
  | release j =>
      rw [perform, isDown_release k j hkey]
      by_cases heq : j = key <;> simp [Command.concerns, heq]
  | reset => simp [perform, Command.concerns, initial, isDown]
  | await =>
      simp only [perform]
      split <;> rfl
  | isDown j | beginWait | isWaiting | take | awaitFor milliseconds | cancel | clearCancellation
  | isCancelled => rfl

/-- The key whose press by a request is caught, if it is. -/
def caughtBy (k : Keypad) : Command → Option UInt8
  | .press key => if k.catches key then some key else none
  | _ => none

/-- A request that begins no wait and resets nothing ends a wait just by a press that is caught. -/
theorem perform_waiting (k : Keypad) {c : Command} (hbegin : c ≠ .beginWait) (hreset : c ≠ .reset) :
    (k.perform c).2.waiting = (k.waiting && (k.caughtBy c).isNone) := by
  cases c with
  | beginWait => exact absurd rfl hbegin
  | reset => exact absurd rfl hreset
  | press key =>
      simp only [perform, caughtBy]
      cases hcatches : k.catches key with
      | true =>
          rw [press_of_catches hcatches]
          exact (Bool.and_false _).symm
      | false =>
          rw [press_of_not_catches hcatches]
          exact (Bool.and_true _).symm
  | release key =>
      simp only [perform]
      rw [release_eq]
      exact (Bool.and_true _).symm
  | await =>
      simp only [perform, caughtBy, Option.isNone_none, Bool.and_true]
      split <;> rfl
  | isDown key | isWaiting | take | awaitFor milliseconds | cancel | clearCancellation
  | isCancelled => exact (Bool.and_true _).symm

/-- Such a request leaves the caught press alone, unless it takes it or presses a key itself. -/
theorem perform_pending (k : Keypad) {c : Command} (hbegin : c ≠ .beginWait) (hreset : c ≠ .reset) :
    (k.perform c).2.pending = if c.takes then none else (k.caughtBy c).or k.pending := by
  cases c with
  | beginWait => exact absurd rfl hbegin
  | reset => exact absurd rfl hreset
  | press key =>
      simp only [perform, caughtBy]
      cases hcatches : k.catches key with
      | true =>
          rw [press_of_catches hcatches]
          rfl
      | false =>
          rw [press_of_not_catches hcatches]
          rfl
  | release key =>
      simp only [perform]
      rw [release_eq]
      rfl
  | await =>
      simp only [perform, Command.takes, if_true]
      split
      · next hblocks => simpa [blocks] using (Bool.and_eq_true_iff.1 hblocks).1
      · rfl
  | isDown key | isWaiting | take | awaitFor milliseconds | cancel | clearCancellation
  | isCancelled => rfl

/-- A key is given away by the requests that take one, and it is the one that was caught. -/
theorem perform_gives (k : Keypad) (c : Command) (key : UInt8) :
    (k.perform c).1 = .key (some key) ↔ c.takes = true ∧ k.pending = some key := by
  cases c with
  | await =>
      simp only [perform, Command.takes, true_and]
      split
      · next hblocks =>
          have hnone := (Bool.and_eq_true_iff.1 hblocks).1
          rw [Option.isNone_iff_eq_none] at hnone
          simp [hnone]
      · simp [take]
  | take | awaitFor milliseconds => simp [perform, Command.takes, take]
  | press key | release key | isDown key | beginWait | isWaiting | cancel | clearCancellation
  | isCancelled | reset => simp [perform, Command.takes]

/-! Histories. -/

theorem performAll_append (k : Keypad) (requests more : List Command) :
    k.performAll (requests ++ more) = (k.performAll requests).performAll more :=
  List.foldl_append

theorem after_concat (history : List Command) (c : Command) :
    after (history ++ [c]) = ((after history).perform c).2 :=
  performAll_append initial history [c]

theorem replies_append (k : Keypad) (requests more : List Command) :
    k.replies (requests ++ more) = k.replies requests ++ (k.performAll requests).replies more := by
  induction requests generalizing k with
  | nil => rfl
  | cons c rest ih =>
      rw [List.cons_append, replies, replies, ih, List.cons_append]
      rfl

theorem freshPresses_append (history requests more : List Command) :
    freshPresses history (requests ++ more) =
      freshPresses history requests ++ freshPresses (history ++ requests) more := by
  induction requests generalizing history with
  | nil => simp [freshPresses]
  | cons c rest ih => simp [freshPresses, ih]

theorem lastDone_concat (history : List Command) (c : Command) (key : UInt8) :
    lastDone (history ++ [c]) key = if c.concerns key then some c else lastDone history key := by
  unfold lastDone
  rw [List.filter_append]
  cases hconcerns : c.concerns key with
  | true => simp [hconcerns]
  | false => simp [hconcerns]

/-- A key is held if what was done to it last was to press it, and no code above fifteen ever is. -/
theorem isDown_after (history : List Command) (key : UInt8) :
    (after history).isDown key = true ↔
      key.toNat < 16 ∧ lastDone history key = some (.press key) := by
  by_cases hkey : key.toNat < 16
  · induction history using List.reverseRecOn with
    | nil => simp [after, performAll, initial, isDown, lastDone]
    | append_singleton history c ih =>
        rw [after_concat, perform_isDown _ c hkey, lastDone_concat]
        split
        · simp [hkey]
        · exact ih
  · rw [isDown_of_le _ (Nat.not_lt.1 hkey)]
    simp [hkey]

/-- A press is caught if it is fresh, and wanted. -/
theorem caughtBy_after (history : List Command) (c : Command) :
    (after history).caughtBy c =
      if (after history).waiting && (after history).pending.isNone then freshPress history c
      else none := by
  cases c with
  | press key =>
      have hup : key.toNat < 16 ∧ lastDone history key ≠ some (.press key) ↔
          key.toNat < 16 ∧ (after history).isDown key = false := by
        rw [← Bool.not_eq_true, isDown_after]
        tauto
      unfold caughtBy freshPress catches
      simp only [hup]
      cases (after history).waiting <;> cases (after history).pending.isNone <;> simp
  | _ => simp [caughtBy, freshPress]

namespace WaitSince

variable {history upTo since : List Command}

theorem of_beginWait (history : List Command) :
    WaitSince (history ++ [.beginWait]) (history ++ [.beginWait]) [] where
  split := (List.append_nil _).symm
  begun := List.getLast?_concat
  latest := List.not_mem_nil
  standing := List.not_mem_nil

/-- A request that begins no wait and resets nothing only adds to what was asked since. -/
theorem concat (h : WaitSince history upTo since) {c : Command} (hbegin : c ≠ .beginWait)
    (hreset : c ≠ .reset) : WaitSince (history ++ [c]) upTo (since ++ [c]) where
  split := by rw [h.split, List.append_assoc]
  begun := h.begun
  latest := by simp [h.latest, hbegin.symm]
  standing := by simp [h.standing, hreset.symm]

theorem of_concat {c : Command} (h : WaitSince (history ++ [c]) upTo since)
    (hbegin : c ≠ .beginWait) :
    c ≠ .reset ∧ ∃ earlier, WaitSince history upTo earlier := by
  obtain rfl | ⟨earlier, last, rfl⟩ := since.eq_nil_or_concat
  · have hlast := h.begun
    rw [← List.append_nil upTo, ← h.split, List.getLast?_concat] at hlast
    exact absurd (Option.some.inj hlast) hbegin
  · rw [List.concat_eq_append] at h
    have hends : history ++ [c] = upTo ++ earlier ++ [last] := by
      rw [List.append_assoc]
      exact h.split
    obtain ⟨hsplit, hc⟩ := List.append_inj' hends rfl
    have hlatest := h.latest
    have hstanding := h.standing
    rw [← hc, List.mem_append, not_or] at hlatest hstanding
    refine ⟨?_, earlier, hsplit, h.begun, hlatest.1, hstanding.1⟩
    intro hreset
    apply hstanding.2
    rw [hreset]
    exact List.mem_singleton_self _

theorem nil_of_begun {more : List Command} (h : WaitSince history upTo (more ++ since))
    (hbegun : (upTo ++ more).getLast? = some .beginWait) : more = [] := by
  cases hlast : more.getLast? with
  | none => exact List.getLast?_eq_none_iff.1 hlast
  | some c =>
      rw [List.getLast?_append, hlast, Option.some_or] at hbegun
      have hmem := List.mem_of_getLast? (hlast.trans hbegun)
      exact absurd (List.mem_append_left since hmem) h.latest

/-- There is only one way to tell what was asked since. -/
theorem unique {upTo' since' : List Command} (h : WaitSince history upTo since)
    (h' : WaitSince history upTo' since') : upTo = upTo' ∧ since = since' := by
  have hsplit := h.split.symm.trans h'.split
  obtain ⟨more, rfl, rfl⟩ | ⟨more, rfl, rfl⟩ := List.append_eq_append_iff.1 hsplit
  · obtain rfl := h.nil_of_begun h'.begun
    exact ⟨(List.append_nil _).symm, rfl⟩
  · obtain rfl := h'.nil_of_begun h.begun
    exact ⟨List.append_nil _, rfl⟩

end WaitSince

/-- How a wait stands by a history, and what a new keypad has come to by it. -/
inductive Stands (history : List Command) : Prop
  | idle (hnone : ∀ upTo since, ¬ WaitSince history upTo since)
      (hwaiting : (after history).waiting = false) (hpending : (after history).pending = none)
  | listening {upTo since : List Command} (hsince : WaitSince history upTo since)
      (hfresh : freshPresses upTo since = []) (hkept : ¬ (after upTo).GaveKey since)
      (hwaiting : (after history).waiting = true) (hpending : (after history).pending = none)
  | caught {upTo since : List Command} {key : UInt8} (hsince : WaitSince history upTo since)
      (hfirst : (freshPresses upTo since).head? = some key) (hkept : ¬ (after upTo).GaveKey since)
      (hwaiting : (after history).waiting = false) (hpending : (after history).pending = some key)
  | served {upTo since : List Command} (hsince : WaitSince history upTo since)
      (hfresh : freshPresses upTo since ≠ []) (hgave : (after upTo).GaveKey since)
      (hwaiting : (after history).waiting = false) (hpending : (after history).pending = none)

/-- What a request adds to the keys given away since a wait began. -/
theorem gaveKey_concat {history upTo since : List Command} (h : WaitSince history upTo since)
    (c : Command) : (after upTo).GaveKey (since ++ [c]) ↔
      (after upTo).GaveKey since ∨ c.takes = true ∧ (after history).pending.isSome = true := by
  unfold GaveKey
  have hafter : (after upTo).performAll since = after history := by
    rw [h.split]
    exact (performAll_append initial upTo since).symm
  rw [replies_append, hafter]
  simp only [replies, List.mem_append, List.mem_singleton, exists_or, Option.isSome_iff_exists]
  simp only [eq_comm (b := ((after history).perform c).1), perform_gives, exists_and_left]

theorem freshPresses_concat {history upTo since : List Command} (h : WaitSince history upTo since)
    (c : Command) : freshPresses upTo (since ++ [c]) =
      freshPresses upTo since ++ (freshPress history c).toList := by
  rw [freshPresses_append, ← h.split]
  simp [freshPresses]

theorem takes_of_freshPress {history : List Command} {c : Command} {key : UInt8}
    (h : freshPress history c = some key) : c.takes = false := by
  cases c with
  | press j => rfl
  | _ => cases h

/-- A request takes a wait on from where it stands. -/
theorem Stands.concat {history : List Command} (h : Stands history) (c : Command) :
    Stands (history ++ [c]) := by
  have hnow := after_concat history c
  by_cases hbegin : c = .beginWait
  · subst hbegin
    refine .listening (.of_beginWait history) rfl ?_ ?_ ?_
    · rintro ⟨key, hkey⟩
      cases hkey
    · rw [hnow]
      rfl
    · rw [hnow]
      rfl
  by_cases hreset : c = .reset
  · subst hreset
    refine .idle ?_ ?_ ?_
    · intro upTo since hsince
      exact (hsince.of_concat hbegin).1 rfl
    · rw [hnow]
      rfl
    · rw [hnow]
      rfl
  -- All other requests go on with the wait that stands, if there is one.
  have hwaiting' := perform_waiting (after history) hbegin hreset
  have hpending' := perform_pending (after history) hbegin hreset
  rw [← hnow, caughtBy_after] at hwaiting' hpending'
  cases h with
  | idle hnone hwaiting hpending =>
      rw [hwaiting, hpending] at hwaiting' hpending'
      refine .idle ?_ (by simpa using hwaiting') (by simpa using hpending')
      intro upTo since hsince
      obtain ⟨-, earlier, hearlier⟩ := hsince.of_concat hbegin
      exact hnone upTo earlier hearlier
  | listening hsince hfresh hkept hwaiting hpending =>
      rw [hwaiting, hpending] at hwaiting' hpending'
      have hsince' := hsince.concat hbegin hreset
      have hfresh' := freshPresses_concat hsince c
      have hkept' := mt (gaveKey_concat hsince c).1 (by simp [hkept, hpending])
      rw [hfresh, List.nil_append] at hfresh'
      cases hpress : freshPress history c with
      | none =>
          rw [hpress] at hwaiting' hpending' hfresh'
          refine .listening hsince' hfresh' hkept' (by simpa using hwaiting') ?_
          simpa using hpending'
      | some key =>
          rw [hpress] at hwaiting' hpending' hfresh'
          have htakes := takes_of_freshPress hpress
          refine .caught hsince' (by rw [hfresh']; rfl) hkept' (by simpa using hwaiting') ?_
          simpa [htakes] using hpending'
  | caught hsince hfirst hkept hwaiting hpending =>
      rw [hwaiting, hpending] at hwaiting' hpending'
      have hsince' := hsince.concat hbegin hreset
      have hfirst' := freshPresses_concat hsince c
      have hgave' := gaveKey_concat hsince c
      have hhead := congrArg List.head? hfirst'
      rw [List.head?_append, hfirst, Option.some_or] at hhead
      cases htakes : c.takes with
      | true =>
          refine .served hsince' ?_ (hgave'.2 (.inr ⟨htakes, by simp [hpending]⟩))
            (by simpa using hwaiting') (by simpa [htakes] using hpending')
          intro hnil
          rw [hnil] at hhead
          cases hhead
      | false =>
          refine .caught hsince' hhead (mt hgave'.1 (by simp [hkept, htakes]))
            (by simpa using hwaiting') ?_
          simpa [htakes] using hpending'
  | served hsince hfresh hgave hwaiting hpending =>
      rw [hwaiting, hpending] at hwaiting' hpending'
      refine .served (hsince.concat hbegin hreset) ?_ ((gaveKey_concat hsince c).2 (.inl hgave))
        (by simpa using hwaiting') (by simpa using hpending')
      rw [freshPresses_concat hsince c]
      exact List.append_ne_nil_of_left_ne_nil hfresh _

theorem stands (history : List Command) : Stands history := by
  induction history using List.reverseRecOn with
  | nil =>
      refine .idle ?_ rfl rfl
      intro upTo since hsince
      have hnil := hsince.split.symm
      rw [List.append_eq_nil_iff] at hnil
      have hbegun := hsince.begun
      rw [hnil.1] at hbegun
      cases hbegun
  | append_singleton history c ih => exact ih.concat c

/-- The press that is caught is the first fresh one since the wait began, unless a key was given
away since. -/
theorem pending_after (history : List Command) (key : UInt8) :
    (after history).pending = some key ↔ ∃ upTo since, WaitSince history upTo since ∧
      ¬ (after upTo).GaveKey since ∧ (freshPresses upTo since).head? = some key := by
  constructor
  · intro h
    cases stands history with
    | idle _ _ hpending | listening _ _ _ _ hpending | served _ _ _ _ hpending =>
        rw [h] at hpending
        cases hpending
    | caught hsince hfirst hkept _ hpending =>
        rw [h] at hpending
        cases hpending
        exact ⟨_, _, hsince, hkept, hfirst⟩
  · rintro ⟨upTo, since, hsince, hkept, hfirst⟩
    cases stands history with
    | idle hnone => exact absurd hsince (hnone upTo since)
    | listening hsince' hfresh =>
        obtain ⟨rfl, rfl⟩ := hsince.unique hsince'
        rw [hfresh] at hfirst
        cases hfirst
    | caught hsince' hfirst' _ _ hpending =>
        obtain ⟨rfl, rfl⟩ := hsince.unique hsince'
        rw [hpending, ← hfirst', hfirst]
    | served hsince' _ hgave =>
        obtain ⟨rfl, rfl⟩ := hsince.unique hsince'
        exact absurd hgave hkept

/-- A keypad listens as long as there was no fresh press since a wait began. -/
theorem waiting_after (history : List Command) :
    (after history).waiting = true ↔ ∃ upTo since, WaitSince history upTo since ∧
      freshPresses upTo since = [] := by
  constructor
  · intro h
    cases stands history with
    | idle _ hwaiting | caught _ _ _ hwaiting | served _ _ _ hwaiting =>
        rw [h] at hwaiting
        cases hwaiting
    | listening hsince hfresh => exact ⟨_, _, hsince, hfresh⟩
  · rintro ⟨upTo, since, hsince, hfresh⟩
    cases stands history with
    | idle hnone => exact absurd hsince (hnone upTo since)
    | listening _ _ _ hwaiting => exact hwaiting
    | caught hsince' hfirst =>
        obtain ⟨rfl, rfl⟩ := hsince.unique hsince'
        rw [hfresh] at hfirst
        cases hfirst
    | served hsince' hfresh' =>
        obtain ⟨rfl, rfl⟩ := hsince.unique hsince'
        exact absurd hfresh hfresh'

theorem not_waiting_and_pending (history : List Command) :
    ¬ ((after history).waiting = true ∧ (after history).pending.isSome = true) := by
  rintro ⟨hwaits, hcaught⟩
  cases stands history with
  | listening _ _ _ _ hpending =>
      rw [hpending] at hcaught
      cases hcaught
  | idle _ hwaiting | caught _ _ _ hwaiting | served _ _ _ hwaiting =>
      rw [hwaits] at hwaiting
      cases hwaiting

/-- A keypad answers as its history tells. A key is held if what was done to it last was to press
it. A key is given away by the requests that take one, if no key was given away since a wait began,
and then it is the first of the sixteen that was pressed since while it was up; until there was such
a press the keypad listens. It never listens with a press caught, and to cancel it or to end that
changes nothing else. -/
theorem answers_by_history (history : List Command) :
    let k := after history
    (∀ key, k.isDown key = true ↔ key.toNat < 16 ∧ lastDone history key = some (.press key)) ∧
      ¬ (k.waiting = true ∧ k.pending.isSome = true) ∧
      (∀ c key, (k.perform c).1 = .key (some key) ↔ c.takes = true ∧
        ∃ upTo since, WaitSince history upTo since ∧ ¬ (after upTo).GaveKey since ∧
          (freshPresses upTo since).head? = some key) ∧
      (k.waiting = true ↔ ∃ upTo since, WaitSince history upTo since ∧
        freshPresses upTo since = []) ∧
      (k.perform .cancel).2 = {k with cancelled := true} ∧
      (k.perform .clearCancellation).2 = {k with cancelled := false} := by
  intro k
  refine ⟨isDown_after history, not_waiting_and_pending history, ?_, waiting_after history, rfl,
    rfl⟩
  intro c key
  rw [perform_gives, pending_after]

end Chip8.Keypad

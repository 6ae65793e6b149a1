import Chip8.Keypad.Hold
import Chip8.Proofs.KeypadHistories
import Mathlib.Data.List.Nodup
import Mathlib.Data.List.Perm.Basic

/-!
The held keys of a terminal, and the keypad that follows them. The same is kept twice, once with
the times of the latest reports and once as the keys that are down, and only a first report and a
release for age change both. Nothing is assumed about the times: a report may come after a later
one, and so may a look for keys that are too old.
-/

namespace Chip8.Keypad

/-- Whether a request leaves all keys as they are. -/
def Command.keepsKeys : Command → Bool
  | .press _ | .release _ | .reset => false
  | _ => true

/-- The held keys of a terminal and the keypad that follows them. -/
structure Terminal where
  hold : Hold
  pad : Keypad

namespace Terminal

/-- What happens to a keypad that follows a terminal. Others wait for keys, take them and cancel,
but they do not press or release any. -/
inductive Event
  | report (code : KeyCode) (now : Nat)
  | expire (now : Nat)
  | ask (request : {c : Command // c.keepsKeys = true})

/-- The key of the keypad that is reported. -/
def Event.reportedKey : Event → Option UInt8
  | .report code _ => code.key?
  | .expire _ | .ask _ => none

/-- A key was reported at some time and not since. -/
structure LastReport (events : List Event) (key : UInt8) (last : Nat) (since : List Event) :
    Prop where
  reported : ∃ before code, events = before ++ .report code last :: since ∧ code.key? = some key
  latest : ∀ e ∈ since, e.reportedKey ≠ some key

def fresh (timeout : Nat) : Terminal :=
  ⟨.empty timeout, .initial⟩

def occur (t : Terminal) : Event → Terminal
  | .report code now => ⟨(t.hold.press t.pad code now).2.1, (t.hold.press t.pad code now).2.2⟩
  | .expire now => ⟨(t.hold.releaseExpired t.pad now).1, (t.hold.releaseExpired t.pad now).2⟩
  | .ask request => {t with pad := (t.pad.perform request).2}

def occurAll (t : Terminal) (events : List Event) : Terminal :=
  events.foldl occur t

/-- The key that is reported, unless it is only a repeat because the key is held. -/
def newReport (t : Terminal) (e : Event) : Option UInt8 :=
  e.reportedKey.filter fun key => !t.hold.holds key

/-- The keys that some events report and that are not held by then. -/
def newReports (t : Terminal) : List Event → List UInt8
  | [] => []
  | e :: rest => (t.newReport e).toList ++ (t.occur e).newReports rest

/-- A terminal and its keypad are in step: the held keys are a map from keys of the keypad, and just
these are down. -/
structure InStep (t : Terminal) : Prop where
  keys : ∀ entry ∈ t.hold.held, entry.1.toNat < 16
  once : (t.hold.held.map Prod.fst).Nodup
  agree : ∀ key, t.pad.isDown key = t.hold.holds key

end Terminal

/-! Held keys and keys that are down, each by themselves. -/

theorem KeyCode.key?_eq_none {code : KeyCode}
    (h : ∀ c key, code = .char c → (c.toLower, key) ∉ layout) : code.key? = none := by
  cases code with
  | char c =>
      rw [key?, List.lookup_eq_none_iff]
      rintro ⟨c', key⟩ hentry
      rw [bne_iff_ne]
      rintro rfl
      exact h c key rfl hentry
  | function n | named name => rfl

theorem KeyCode.key?_lt {code : KeyCode} {key : UInt8} (h : code.key? = some key) :
    key.toNat < 16 := by
  have hsixteen : ∀ entry ∈ layout, entry.2.toNat < 16 := by decide
  cases code with
  | char c =>
      rw [key?, List.lookup_eq_some_iff] at h
      obtain ⟨before, after, hlayout, -⟩ := h
      refine hsixteen (c.toLower, key) ?_
      rw [hlayout]
      simp
  | function n | named name => cases h

theorem isDown_press_key (k : Keypad) {key : UInt8} (hkey : key.toNat < 16) (j : UInt8) :
    (k.press key).isDown j = (j == key || k.isDown j) := by
  by_cases heq : j = key
  · rw [isDown_press k key (heq ▸ hkey), if_pos heq.symm]
    simp [heq]
  · by_cases hj : j.toNat < 16
    · rw [isDown_press k key hj, if_neg (Ne.symm heq)]
      simp [heq]
    · simp [isDown_of_le _ (Nat.not_lt.1 hj), heq]

theorem isDown_release_all (k : Keypad) (due : List UInt8) (key : UInt8) :
    (due.foldl release k).isDown key = (k.isDown key && !due.contains key) := by
  induction due generalizing k with
  | nil => simp
  | cons j rest ih =>
      rw [List.foldl_cons, ih]
      by_cases hkey : key.toNat < 16
      · rw [isDown_release k j hkey]
        by_cases heq : j = key
        · simp [heq]
        · simp [heq, Ne.symm heq]
      · simp [isDown_of_le _ (Nat.not_lt.1 hkey)]

theorem perform_keys (k : Keypad) {c : Command} (hc : c.keepsKeys = true) :
    (k.perform c).2.keys = k.keys := by
  cases c with
  | press key | release key | reset => cases hc
  | await =>
      simp only [perform]
      split <;> rfl
  | isDown key | beginWait | isWaiting | take | awaitFor milliseconds | cancel | clearCancellation
  | isCancelled => rfl

/-- A request that leaves the keys as they are catches no press and ends no wait. -/
theorem perform_waits (k : Keypad) {c : Command} (hc : c.keepsKeys = true) :
    (k.waiting = true → (k.perform c).2.waiting = true) ∧
      ((k.perform c).2.pending = none ∨ (k.perform c).2.pending = k.pending) := by
  cases c with
  | press key | release key | reset => cases hc
  | beginWait => exact ⟨fun _ => rfl, .inl rfl⟩
  | take | awaitFor milliseconds => exact ⟨id, .inl rfl⟩
  | await =>
      simp only [perform]
      split
      · exact ⟨id, .inr rfl⟩
      · exact ⟨id, .inl rfl⟩
  | isDown key | isWaiting | cancel | clearCancellation | isCancelled => exact ⟨id, .inr rfl⟩

theorem release_all_eq (k : Keypad) (due : List UInt8) :
    due.foldl release k = {k with keys := (due.foldl release k).keys} := by
  induction due generalizing k with
  | nil => rfl
  | cons j rest ih =>
      rw [List.foldl_cons, ih, release_eq k j]

theorem release_comm (k : Keypad) (i j : UInt8) :
    (k.release i).release j = (k.release j).release i := by
  by_cases heq : i = j
  · rw [heq]
  · have hne : i.toNat ≠ j.toNat := fun hsame => heq (UInt8.toNat_inj.1 hsame)
    unfold release
    split <;> split
    · dsimp only
      rw [Vector.set_comm _ _ hne]
    all_goals rfl

namespace Hold

theorem holds_iff {h : Hold} {key : UInt8} :
    h.holds key = true ↔ ∃ last, (key, last) ∈ h.held := by
  simp [holds]

theorem mem_note {h : Hold} {j key : UInt8} {now last : Nat} :
    (key, last) ∈ (h.note j now).held ↔
      now = last ∧ j = key ∨ j ≠ key ∧ (key, last) ∈ h.held := by
  simp only [note, List.mem_cons, Prod.mk.injEq, List.mem_filter, bne_iff_ne, ne_eq,
    eq_comm (a := key), eq_comm (a := last), and_comm]

theorem mem_due {h : Hold} {now : Nat} {key : UInt8} :
    key ∈ h.due now ↔ ∃ last, (key, last) ∈ h.held ∧ h.timeout ≤ now - last := by
  simp [due, expired]

theorem mem_releaseExpired {h : Hold} {pad : Keypad} {now : Nat} {key : UInt8} {last : Nat} :
    (key, last) ∈ (h.releaseExpired pad now).1.held ↔
      (key, last) ∈ h.held ∧ now - last < h.timeout := by
  simp [releaseExpired, expired]

theorem press_of_unmapped {code : KeyCode} (hcode : code.key? = none) (h : Hold) (pad : Keypad)
    (now : Nat) : h.press pad code now = (false, h, pad) := by
  rw [press, hcode]

theorem press_of_mapped {code : KeyCode} {key : UInt8} (hcode : code.key? = some key) (h : Hold)
    (pad : Keypad) (now : Nat) : h.press pad code now =
      (true, h.note key now, if h.holds key then pad else pad.press key) := by
  rw [press, hcode]

/-- The order in which the held keys are looked through makes no difference to what is released and
what is still held. -/
theorem releaseExpired_perm (h : Hold) {held : List (UInt8 × Nat)} (hheld : held.Perm h.held)
    (pad : Keypad) (now : Nat) :
    let visited := {h with held := held}.releaseExpired pad now
    visited.1.held.Perm (h.releaseExpired pad now).1.held ∧
      visited.2 = (h.releaseExpired pad now).2 := by
  refine ⟨hheld.filter _, ?_⟩
  have hdue : ({h with held := held}.due now).Perm (h.due now) := (hheld.filter _).map Prod.fst
  exact hdue.foldl_eq' (fun i _ j _ k => release_comm k i j) pad

end Hold

namespace Terminal

open Hold

variable {t : Terminal}

theorem InStep.fresh (timeout : Nat) : (fresh timeout).InStep where
  keys := by simp [Terminal.fresh, empty]
  once := List.nodup_nil
  agree key := by simp [Terminal.fresh, empty, holds, isDown, initial]

/-- A key is held since one time only. -/
theorem InStep.unique (h : t.InStep) {key : UInt8} {a b : Nat} (ha : (key, a) ∈ t.hold.held)
    (hb : (key, b) ∈ t.hold.held) : a = b := by
  have hsame := List.inj_on_of_nodup_map h.once ha hb rfl
  exact (Prod.mk.inj hsame).2

theorem occur_of_mapped {code : KeyCode} {key : UInt8} (hcode : code.key? = some key) (now : Nat) :
    t.occur (.report code now) =
      ⟨t.hold.note key now, if t.hold.holds key then t.pad else t.pad.press key⟩ := by
  rw [occur, press_of_mapped hcode]

theorem occur_of_unmapped {code : KeyCode} (hcode : code.key? = none) (now : Nat) :
    t.occur (.report code now) = t := by
  rw [occur, press_of_unmapped hcode]

/-- Only a report that is not a repeat presses a key. -/
theorem InStep.report (h : t.InStep) {code : KeyCode} {key : UInt8} (hcode : code.key? = some key)
    (now : Nat) : (t.occur (.report code now)).InStep := by
  have hkey := KeyCode.key?_lt hcode
  rw [occur_of_mapped hcode]
  refine ⟨?_, ?_, ?_⟩
  · rintro ⟨j, last⟩ hentry
    obtain ⟨-, rfl⟩ | ⟨-, hold⟩ := mem_note.1 hentry
    · exact hkey
    · exact h.keys _ hold
  · have hothers : (t.hold.held.filter (·.1 != key)).Sublist t.hold.held := List.filter_sublist
    refine List.nodup_cons.2 ⟨?_, h.once.sublist (hothers.map Prod.fst)⟩
    simp
  · intro j
    have hnoted : (t.hold.note key now).holds j = (j == key || t.hold.holds j) := by
      rw [Bool.eq_iff_iff, Bool.or_eq_true, holds_iff, holds_iff]
      simp only [mem_note, beq_iff_eq]
      by_cases heq : j = key <;> simp [heq, eq_comm (a := key)]
    dsimp only
    rw [hnoted, ← h.agree j]
    split
    · next hheld =>
        rw [← h.agree key] at hheld
        by_cases heq : j = key <;> simp [heq, hheld]
    · exact isDown_press_key t.pad hkey j

/-- All that is due goes up, and the rest stays down. -/
theorem InStep.expire (h : t.InStep) (now : Nat) : (t.occur (.expire now)).InStep := by
  have hkept : (t.occur (.expire now)).hold.held.Sublist t.hold.held := List.filter_sublist
  refine ⟨fun entry hentry => h.keys entry (hkept.subset hentry),
    h.once.sublist (hkept.map Prod.fst), ?_⟩
  intro key
  refine (isDown_release_all t.pad (t.hold.due now) key).trans ?_
  rw [h.agree key, Bool.eq_iff_iff, Bool.and_eq_true, Bool.not_eq_true', holds_iff, holds_iff,
    ← Bool.not_eq_true, List.contains_iff_mem, mem_due]
  constructor
  · rintro ⟨⟨last, hheld⟩, hdue⟩
    have hfresh : ¬ t.hold.timeout ≤ now - last := fun hold => hdue ⟨last, hheld, hold⟩
    refine ⟨last, ?_⟩
    rw [occur, mem_releaseExpired]
    exact ⟨hheld, Nat.lt_of_not_le hfresh⟩
  · rintro ⟨last, hkept⟩
    rw [occur, mem_releaseExpired] at hkept
    obtain ⟨hheld, hfresh⟩ := hkept
    refine ⟨⟨last, hheld⟩, ?_⟩
    rintro ⟨last', hheld', hold⟩
    rw [h.unique hheld' hheld] at hold
    exact absurd hfresh (Nat.not_lt.2 hold)

/-- Nobody else touches either. -/
theorem InStep.ask (h : t.InStep) (request : {c : Command // c.keepsKeys = true}) :
    (t.occur (.ask request)).InStep where
  keys := h.keys
  once := h.once
  agree key := by
    rw [occur, isDown, perform_keys t.pad request.2]
    exact h.agree key

theorem InStep.occur (h : t.InStep) (e : Event) : (t.occur e).InStep := by
  cases e with
  | report code now =>
      cases hcode : code.key? with
      | none =>
          rw [occur_of_unmapped hcode]
          exact h
      | some key => exact h.report hcode now
  | expire now => exact h.expire now
  | ask request => exact h.ask request

theorem InStep.occurAll (h : t.InStep) (events : List Event) : (t.occurAll events).InStep := by
  induction events generalizing t with
  | nil => exact h
  | cons e rest ih => exact ih (h.occur e)

theorem occurAll_concat (t : Terminal) (events : List Event) (e : Event) :
    t.occurAll (events ++ [e]) = (t.occurAll events).occur e :=
  List.foldl_append

/-! How long a key is held. -/

theorem occur_timeout (t : Terminal) (e : Event) :
    (t.occur e).hold.timeout = t.hold.timeout := by
  cases e with
  | report code now =>
      cases hcode : code.key? with
      | none => rw [occur_of_unmapped hcode]
      | some key =>
          rw [occur_of_mapped hcode]
          rfl
  | expire now | ask request => rfl

theorem occurAll_timeout (t : Terminal) (events : List Event) :
    (t.occurAll events).hold.timeout = t.hold.timeout := by
  induction events generalizing t with
  | nil => rfl
  | cons e rest ih => exact (ih (t.occur e)).trans (occur_timeout t e)

/-- A key is held since its latest report, unless that was too long ago when somebody looked. -/
theorem mem_held_occur (t : Terminal) (e : Event) (key : UInt8) (last : Nat) :
    (key, last) ∈ (t.occur e).hold.held ↔
      (∃ code, e = .report code last ∧ code.key? = some key) ∨
      e.reportedKey ≠ some key ∧ (key, last) ∈ t.hold.held ∧
        ∀ now, e = .expire now → now - last < t.hold.timeout := by
  cases e with
  | report code now =>
      cases hcode : code.key? with
      | none =>
          rw [occur_of_unmapped hcode]
          simp [Event.reportedKey, hcode]
      | some j =>
          rw [occur_of_mapped hcode, mem_note]
          simp [Event.reportedKey, hcode]
  | expire now =>
      rw [occur, mem_releaseExpired]
      simp [Event.reportedKey]
  | ask request => simp [occur, Event.reportedKey]

theorem lastReport_concat {events since : List Event} {e : Event} {key : UInt8} {last : Nat} :
    LastReport (events ++ [e]) key last since ↔
      (since = [] ∧ ∃ code, e = .report code last ∧ code.key? = some key) ∨
      ∃ earlier, since = earlier ++ [e] ∧ e.reportedKey ≠ some key ∧
        LastReport events key last earlier := by
  constructor
  · rintro ⟨⟨before, code, hsplit, hcode⟩, hlatest⟩
    obtain rfl | ⟨earlier, e', rfl⟩ := since.eq_nil_or_concat'
    · have he := (List.append_inj' hsplit rfl).2
      exact .inl ⟨rfl, code, List.singleton_inj.1 he, hcode⟩
    · have hends : events ++ [e] = (before ++ .report code last :: earlier) ++ [e'] := by
        rw [hsplit, List.append_assoc, List.cons_append]
      obtain ⟨hevents, he⟩ := List.append_inj' hends rfl
      obtain rfl := List.singleton_inj.1 he
      refine .inr ⟨earlier, rfl, hlatest e (by simp), ⟨before, code, hevents, hcode⟩, ?_⟩
      intro e' hmem
      exact hlatest e' (List.mem_append_left [e] hmem)
  · rintro (⟨rfl, code, rfl, hcode⟩ | ⟨earlier, rfl, he, ⟨before, code, rfl, hcode⟩, hlatest⟩)
    · exact ⟨⟨events, code, rfl, hcode⟩, by simp⟩
    · refine ⟨⟨before, code, by simp, hcode⟩, ?_⟩
      intro e' hmem
      rw [List.mem_append, List.mem_singleton] at hmem
      obtain hearlier | rfl := hmem
      · exact hlatest e' hearlier
      · exact he

/-- The held keys, with their times, by what happened. -/
theorem mem_held_after (timeout : Nat) (events : List Event) (key : UInt8) (last : Nat) :
    (key, last) ∈ ((fresh timeout).occurAll events).hold.held ↔
      ∃ since, LastReport events key last since ∧
        ∀ now, .expire now ∈ since → now - last < timeout := by
  induction events using List.reverseRecOn with
  | nil =>
      constructor
      · rintro ⟨⟩
      · rintro ⟨since, ⟨⟨before, code, hsplit, -⟩, -⟩, -⟩
        simp at hsplit
  | append_singleton events e ih =>
      have htimeout : ((fresh timeout).occurAll events).hold.timeout = timeout :=
        occurAll_timeout (fresh timeout) events
      rw [occurAll_concat, mem_held_occur, ih, htimeout]
      constructor
      · rintro (⟨code, rfl, hcode⟩ | ⟨he, ⟨earlier, hreport, hkept⟩, hfresh⟩)
        · exact ⟨[], lastReport_concat.2 (.inl ⟨rfl, code, rfl, hcode⟩), nofun⟩
        · refine ⟨earlier ++ [e], lastReport_concat.2 (.inr ⟨earlier, rfl, he, hreport⟩), ?_⟩
          intro now hlook
          rw [List.mem_append, List.mem_singleton] at hlook
          obtain hearlier | hnow := hlook
          · exact hkept now hearlier
          · exact hfresh now hnow.symm
      · rintro ⟨since, hreport, hkept⟩
        obtain ⟨rfl, hreported⟩ | ⟨earlier, rfl, he, hearlier⟩ := lastReport_concat.1 hreport
        · exact .inl hreported
        · refine .inr ⟨he, ⟨earlier, hearlier, ?_⟩, ?_⟩
          · intro now hlook
            exact hkept now (List.mem_append_left [e] hlook)
          · rintro now rfl
            exact hkept now (by simp)

/-! What waits for a key. -/

/-- What an event asks of the keypad. -/
def requests (t : Terminal) : Event → List Command
  | .report code now => (t.newReport (.report code now)).toList.map .press
  | .expire now => (t.hold.due now).map .release
  | .ask request => [request.1]

/-- A report is a repeat or of no key at all, or it presses a key that is not held. -/
theorem report_cases (t : Terminal) (code : KeyCode) (now : Nat) :
    t.newReport (.report code now) = none ∧ (t.occur (.report code now)).pad = t.pad ∨
      ∃ key, key.toNat < 16 ∧ t.hold.holds key = false ∧
        t.newReport (.report code now) = some key ∧
        (t.occur (.report code now)).pad = t.pad.press key := by
  have hnew : t.newReport (.report code now) = code.key?.filter fun key => !t.hold.holds key := rfl
  rw [hnew]
  cases hcode : code.key? with
  | none =>
      rw [occur_of_unmapped hcode]
      exact .inl ⟨rfl, rfl⟩
  | some key =>
      rw [occur_of_mapped hcode]
      cases hheld : t.hold.holds key with
      | true => exact .inl ⟨by simp [hheld], rfl⟩
      | false => exact .inr ⟨key, KeyCode.key?_lt hcode, hheld, by simp [hheld], rfl⟩

theorem occur_pad (t : Terminal) (e : Event) :
    (t.occur e).pad = t.pad.performAll (t.requests e) := by
  cases e with
  | report code now =>
      rw [requests]
      obtain ⟨hrepeat, hpad⟩ | ⟨key, -, -, hnew, hpad⟩ := t.report_cases code now
      · rw [hpad, hrepeat]
        rfl
      · rw [hpad, hnew]
        rfl
  | expire now =>
      rw [requests, performAll, List.foldl_map]
      rfl
  | ask request => rfl

/-- The keypad of a terminal is one with a history. -/
theorem pad_has_history (timeout : Nat) (events : List Event) :
    ∃ history, ((fresh timeout).occurAll events).pad = after history := by
  induction events using List.reverseRecOn with
  | nil => exact ⟨[], rfl⟩
  | append_singleton events e ih =>
      obtain ⟨history, hpad⟩ := ih
      refine ⟨history ++ ((fresh timeout).occurAll events).requests e, ?_⟩
      rw [occurAll_concat, occur_pad, hpad, ← performAll_append]

/-- A wait ends with the key that an event reports and that was not held, and with no other. -/
theorem InStep.occur_waits (h : t.InStep) (hwaiting : t.pad.waiting = true)
    (hpending : t.pad.pending = none) (e : Event) :
    (t.occur e).pad.pending = t.newReport e ∧
      (t.occur e).pad.waiting = (t.newReport e).isNone := by
  cases e with
  | report code now =>
      obtain ⟨hrepeat, hpad⟩ | ⟨key, hkey, hheld, hnew, hpad⟩ := t.report_cases code now
      · rw [hpad, hrepeat]
        exact ⟨hpending, hwaiting⟩
      · have hcatches : t.pad.catches key = true :=
          catches_iff.2 ⟨hkey, (h.agree key).trans hheld, hwaiting, hpending⟩
        rw [hpad, hnew, press_of_catches hcatches]
        exact ⟨rfl, rfl⟩
  | expire now =>
      rw [Terminal.occur, releaseExpired, release_all_eq]
      exact ⟨hpending, hwaiting⟩
  | ask request =>
      obtain ⟨hstays, hnone | hkept⟩ := perform_waits t.pad request.2
      · exact ⟨hnone, hstays hwaiting⟩
      · exact ⟨hkept.trans hpending, hstays hwaiting⟩

/-- Repeats, however many, leave a wait as it is. -/
theorem InStep.occurAll_waits (h : t.InStep) (hwaiting : t.pad.waiting = true)
    (hpending : t.pad.pending = none) {events : List Event} (hrepeats : t.newReports events = []) :
    (t.occurAll events).pad.waiting = true ∧ (t.occurAll events).pad.pending = none := by
  induction events generalizing t with
  | nil => exact ⟨hwaiting, hpending⟩
  | cons e rest ih =>
      obtain ⟨hrepeat, hrest⟩ := List.append_eq_nil_iff.1 hrepeats
      rw [Option.toList_eq_nil_iff] at hrepeat
      obtain ⟨hpending', hwaiting'⟩ := h.occur_waits hwaiting hpending e
      rw [hrepeat] at hpending' hwaiting'
      exact ih (h.occur e) hwaiting' hpending' hrest

/-- While nobody waits, no key is caught. -/
theorem occur_unheard (hwaiting : t.pad.waiting = false) (e : Event) {key : UInt8}
    (hcaught : (t.occur e).pad.pending = some key) : t.pad.pending = some key := by
  cases e with
  | report code now =>
      obtain ⟨-, hpad⟩ | ⟨j, -, -, -, hpad⟩ := t.report_cases code now
      · rw [hpad] at hcaught
        exact hcaught
      · rw [hpad, press_of_not_waiting hwaiting] at hcaught
        exact hcaught
  | expire now =>
      rw [Terminal.occur, releaseExpired, release_all_eq] at hcaught
      exact hcaught
  | ask request =>
      obtain ⟨-, hnone | hkept⟩ := perform_waits t.pad request.2
      · cases hnone.symm.trans hcaught
      · exact hkept.symm.trans hcaught

/-- A keypad and the terminal that it follows stay in step, whatever the times. A key is down if it
was not too old whenever somebody looked since its latest report. A wait ends with the first report
of a key that is not held, so that no number of repeats ends one; codes without a key are refused
and change nothing; and it makes no difference in which order the held keys are looked through. -/
theorem keypad_follows_reports (timeout : Nat) (events : List Event) :
    let t := (fresh timeout).occurAll events
    t.InStep ∧
      (∀ key, t.pad.isDown key = true ↔ ∃ last since, LastReport events key last since ∧
        ∀ now : Nat, .expire now ∈ since → max 0 ((now : Int) - last) < timeout) ∧
      (∀ e, t.pad.waiting = true → (t.occur e).pad.pending = t.newReport e ∧
        (t.occur e).pad.waiting = (t.newReport e).isNone) ∧
      (∀ e key, t.pad.waiting = false → (t.occur e).pad.pending = some key →
        t.pad.pending = some key) ∧
      (∀ repeats, t.newReports repeats = [] → t.pad.waiting = true →
        (t.occurAll repeats).pad.waiting = true ∧ (t.occurAll repeats).pad.pending = none) ∧
      (∀ code now, (∀ c key, code = .char c → (c.toLower, key) ∉ layout) →
        t.hold.press t.pad code now = (false, t.hold, t.pad)) ∧
      (∀ held now, held.Perm t.hold.held →
        let visited := {t.hold with held := held}.releaseExpired t.pad now
        visited.1.held.Perm (t.hold.releaseExpired t.pad now).1.held ∧
          visited.2 = (t.hold.releaseExpired t.pad now).2) := by
  intro t
  have hstep : t.InStep := (InStep.fresh timeout).occurAll events
  have hlistens : t.pad.waiting = true → t.pad.pending = none := by
    obtain ⟨history, hpad⟩ := pad_has_history timeout events
    intro hwaiting
    have hnone := not_waiting_and_pending history
    rw [← hpad, not_and, Option.not_isSome_iff_eq_none] at hnone
    exact hnone hwaiting
  refine ⟨hstep, ?_, ?_, ?_, ?_, ?_, ?_⟩
  · intro key
    have hclamped (last now : Nat) :
        max 0 ((now : Int) - last) < timeout ↔ now - last < timeout := by omega
    rw [hstep.agree key, holds_iff]
    simp only [hclamped]
    exact exists_congr fun last => mem_held_after timeout events key last
  · intro e hwaiting
    exact hstep.occur_waits hwaiting (hlistens hwaiting) e
  · intro e key hwaiting
    exact occur_unheard hwaiting e
  · intro repeats hrepeats hwaiting
    exact hstep.occurAll_waits hwaiting (hlistens hwaiting) hrepeats
  · intro code now hcode
    exact press_of_unmapped (KeyCode.key?_eq_none hcode) t.hold t.pad now
  · intro held now hheld
    exact releaseExpired_perm t.hold hheld t.pad now

/-- The second wait of a key that repeats goes on. -/
example :
    let t := (fresh 100).occurAll [.ask ⟨.beginWait, rfl⟩, .report (.char '1') 0, .ask ⟨.take, rfl⟩,
      .ask ⟨.beginWait, rfl⟩, .report (.char '1') 30]
    t.pad.isDown 1 = true ∧ t.pad.waiting = true ∧ t.pad.pending = none := by decide

end Terminal

end Chip8.Keypad

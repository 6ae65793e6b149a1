import Chip8.Proofs.Likeness
import Chip8.Proofs.LoopEffects

/-!
What a display is shown. A run does the same whatever its display makes of the frames, so the frames
that requests bring about can be read off beside it, from a run whose display is the list of them.
There is one for every instruction that changes the picture and for every reset, and the last of
them is the picture as it stands.
-/

namespace Chip8

/-- A display that was shown some frames, the earliest first. -/
def Display.showAll {σ : Type} [Display σ] (d : σ) (frames : List Screen) : σ :=
  frames.foldl Display.refresh d

/-- The machine with another display in place of its own. -/
def Machine.withDisplay {σ τ : Type} (m : Machine σ) (display : τ) : Machine τ :=
  {m with display}

def Run.withDisplay {σ τ : Type} (r : Run σ) (display : τ) : Run τ :=
  ⟨r.machine.withDisplay display, r.panel, r.phase, r.refreshes⟩

/-- The frames that the display is shown when some requests are made, the earliest first. -/
def Run.framesShown {σ : Type} (r : Run σ) (requests : List Run.Request) : List Screen :=
  ((r.withDisplay ([] : List Screen)).fulfilAll requests).machine.display.reverse

/-- A display beside the list of the frames that it was shown since it was `d`. -/
def Likeness.showing {σ : Type} [Display σ] (d : σ) : Likeness σ (List Screen) where
  display e frames := e = Display.showAll d frames.reverse
  sound := Eq
  settings := Eq
  display_refresh {e frames} frame h := by
    change Display.refresh e frame = Display.showAll d (frame :: frames).reverse
    simp [Display.showAll, h]
  sound_refl _ := rfl
  sound_countDown := congrArg Timers.countDown
  movesIndex_eq := congrArg Settings.movesIndex

theorem Machine.Like.withDisplay_eq {σ ρ : Type} [Display σ] {e : σ} {m : Machine σ}
    {m' : Machine (List Screen)} (h : m.Like (.showing e) m') (d : ρ) :
    m.withDisplay d = m'.withDisplay d := by
  have htimers : m.timers = m'.timers := congr (congrArg Timers.mk h.delay) h.sound
  have hsettings : m.settings = m'.settings := h.settings
  simp only [withDisplay, h.memory, h.registers, h.stack, h.screen, htimers, h.keypad, h.random,
    h.mode, h.heldKey, h.lastOpcode, hsettings]

namespace Run

variable {σ : Type} [Display σ]

theorem Like.published_eq {e : σ} {r : Run σ} {s : Run (List Screen)}
    (h : Like (.showing e) r s) : r.panel.published = s.panel.published := by
  have hpublished := h.published fun _ _ => congrArg Settings.debug
  generalize r.panel.published = a, s.panel.published = b at hpublished
  cases hpublished with
  | none => rfl
  | some hreadout => rw [hreadout.eq, ← hreadout.sound]

theorem Like.withDisplay_eq {ρ : Type} {e : σ} {r : Run σ} {s : Run (List Screen)}
    (h : Like (.showing e) r s) (d : ρ) : r.withDisplay d = s.withDisplay d := by
  have hpanel : r.panel = s.panel := by
    change {r.panel.unpublished with published := r.panel.published} = s.panel
    rw [h.panel, h.published_eq]
    rfl
  rw [withDisplay, withDisplay, h.machine.withDisplay_eq d, hpanel, h.phase, h.refreshes]

theorem like_showing (r : Run σ) :
    Like (Likeness.showing r.machine.display) r (r.withDisplay ([] : List Screen)) where
  machine := ⟨rfl, rfl, rfl, rfl, rfl, rfl, rfl, rfl, rfl, rfl, rfl, rfl, rfl⟩
  panel := rfl
  phase := rfl
  refreshes := rfl
  published _ := by
    unfold withDisplay
    cases r.panel.published with
    | none => exact .none
    | some o => exact .some ⟨rfl, rfl⟩

/-- A display has been shown the frames shown, and nothing else happens to it. -/
theorem fulfilAll_display (r : Run σ) (requests : List Request) :
    (r.fulfilAll requests).machine.display =
      Display.showAll r.machine.display (r.framesShown requests) :=
  (r.like_showing.fulfilAll requests).machine.display

/-- But for the display, a run stands after some requests where it would with frames listed. -/
theorem fulfilAll_withDisplay {ρ : Type} (r : Run σ) (requests : List Request) (d : ρ) :
    (r.fulfilAll requests).withDisplay d =
      ((r.withDisplay ([] : List Screen)).fulfilAll requests).withDisplay d :=
  (r.like_showing.fulfilAll requests).withDisplay_eq d

omit [Display σ] in
theorem withDisplay_congr {τ ρ : Type} {r : Run σ} {s : Run τ}
    (h : r.withDisplay () = s.withDisplay ()) (d : ρ) : r.withDisplay d = s.withDisplay d :=
  congrArg (fun r : Run Unit => r.withDisplay d) h

/-- Runs that differ in their displays only still do so after the same requests. -/
theorem fulfilAll_congr {τ : Type} [Display τ] {r : Run σ} {s : Run τ}
    (h : r.withDisplay () = s.withDisplay ()) (requests : List Request) :
    (r.fulfilAll requests).withDisplay () = (s.fulfilAll requests).withDisplay () := by
  rw [r.fulfilAll_withDisplay, s.fulfilAll_withDisplay, withDisplay_congr h]

/-- They also give the same answers. -/
theorem responses_congr {τ : Type} [Display τ] {r : Run σ} {s : Run τ}
    (h : r.withDisplay () = s.withDisplay ()) (requests : List Request) :
    r.responses requests = s.responses requests := by
  rw [r.like_showing.responses_eq, s.like_showing.responses_eq, withDisplay_congr h]

omit [Display σ] in
theorem framesShown_congr {τ : Type} {r : Run σ} {s : Run τ}
    (h : r.withDisplay () = s.withDisplay ()) (requests : List Request) :
    r.framesShown requests = s.framesShown requests :=
  congrArg (fun r : Run Unit => r.framesShown requests) h

end Run

namespace Machine

/-- What is to be seen of a machine: its display and its screen. -/
def picture {σ : Type} (m : Machine σ) : σ × Screen :=
  (m.display, m.screen)

/-- An instruction that shows a frame shows the screen as it leaves it. -/
theorem executed_of_refreshes {σ : Type} [Display σ] (m : Machine σ) {i : Instruction}
    (h : i.refreshes = true) :
    (m.executed i).display = Display.refresh m.display (m.executed i).screen := by
  cases i with
  | clearScreen | draw x y height => rfl
  | _ => cases h

/-- An instruction that shows no frame leaves the screen as it was. -/
theorem executed_of_not_refreshes {σ : Type} [Display σ] (m : Machine σ) {i : Instruction}
    (h : i.refreshes = false) : (m.executed i).picture = m.picture := by
  obtain ⟨memory, registers, stack, screen, timers, keypad, random, mode, heldKey, opcode,
    settings, display⟩ := m
  unfold picture
  cases i with
  | clearScreen | draw x y height => cases h
  | storeRegisters x => rw [executed_storeRegisters]
  | loadRegisters x => rw [executed_loadRegisters]
  | _ => rfl

theorem interrupted_picture {σ : Type} (m : Machine σ) (i : Instruction) :
    (m.interrupted i).picture = m.picture := by
  obtain ⟨memory, registers, stack, screen, timers, keypad, random, mode, heldKey, opcode,
    settings, display⟩ := m
  unfold picture
  cases i <;> rfl

theorem picture_unkeyed {σ : Type} : Unkeyed fun m : Machine σ => m.picture :=
  ⟨fun _ _ => rfl, fun _ _ => rfl, fun _ _ _ => rfl⟩

/-- From one machine to another `n` frames were shown, the last of which is the picture as it
stands. Without any the picture stands as it did. -/
def Shows (m : Machine (List Screen)) (n : Nat) (m' : Machine (List Screen)) : Prop :=
  ∃ frames, m'.display = frames ++ m.display ∧ frames.length = n ∧
    m'.screen = frames.headD m.screen

namespace Shows

theorem of_picture {m m' : Machine (List Screen)} (h : m'.picture = m.picture) :
    m.Shows 0 m' := by
  obtain ⟨hdisplay, hscreen⟩ := Prod.mk.inj h
  exact ⟨[], hdisplay, rfl, hscreen⟩

theorem of_refresh {m m' : Machine (List Screen)}
    (h : m'.display = Display.refresh m.display m'.screen) : m.Shows 1 m' :=
  ⟨[m'.screen], h, rfl, rfl⟩

theorem trans {m m' m'' : Machine (List Screen)} {a b : Nat} (h : m.Shows a m')
    (h' : m'.Shows b m'') : m.Shows (a + b) m'' := by
  obtain ⟨frames, hdisplay, hlength, hscreen⟩ := h
  obtain ⟨more, hdisplay', hlength', hscreen'⟩ := h'
  refine ⟨more ++ frames, ?_, ?_, ?_⟩
  · rw [hdisplay', hdisplay, List.append_assoc]
  · rw [List.length_append, hlength, hlength', Nat.add_comm]
  · rw [hscreen', hscreen]
    cases more <;> rfl

end Shows

variable (m : Machine (List Screen))

theorem executed_shows (i : Instruction) :
    m.Shows ([i].countP Instruction.refreshes) (m.executed i) := by
  rw [List.countP_singleton]
  cases h : i.refreshes with
  | true => exact .of_refresh (m.executed_of_refreshes h)
  | false => exact .of_picture (m.executed_of_not_refreshes h)

theorem execute_shows (i : Instruction) :
    m.Shows ((m.completed [i]).countP Instruction.refreshes) (afterwards (execute i) m) := by
  unfold completed afterwards
  cases hfault : i.fault? with
  | none =>
      rw [execute_of_none hfault]
      exact m.executed_shows i
  | some fault =>
      rw [execute_of_some hfault]
      exact .of_picture (m.interrupted_picture i)

theorem executeAll_shows (instructions : List Instruction) :
    m.Shows ((m.completed instructions).countP Instruction.refreshes)
      (afterwards (executeAll instructions) m) := by
  induction instructions generalizing m with
  | nil => exact .of_picture rfl
  | cons i rest ih =>
      change m.Shows _ (afterwards (execute i >>= fun _ => executeAll rest) m)
      unfold afterwards completed
      simp only [bind, EStateM.bind]
      cases hfault : i.fault? with
      | none =>
          simp only [execute_of_none hfault]
          rw [← List.singleton_append, List.countP_append]
          exact (m.executed_shows i).trans (ih _)
      | some fault =>
          simp only [execute_of_some hfault]
          exact .of_picture (m.interrupted_picture i)

theorem advanced_shows :
    m.Shows (m.upcoming.toList.countP Instruction.refreshes) m.advanced := by
  unfold upcoming
  cases hmode : m.mode with
  | running =>
      rw [advanced_running hmode]
      exact m.fetched.executed_shows _
  | waitingForKey x =>
      rw [advanced_waiting hmode]
      exact .of_picture rfl

theorem step_shows :
    m.Shows (m.upcoming.toList.countP Instruction.refreshes) (afterwards step m) :=
  m.advanced_shows.trans (.of_picture (picture_unkeyed.step m))

end Machine

namespace Run

variable (r : Run (List Screen))

theorem advance_shows (meanwhile : List Action) :
    r.machine.Shows ((r.completed (.advance meanwhile)).countP Instruction.refreshes)
      (r.fulfil (.advance meanwhile)).machine := by
  have hpicture := advanceWith_unkeyed Machine.picture_unkeyed r meanwhile
  simp only [completed, fulfil]
  cases hbegins : r.begins with
  | true =>
      rw [hbegins] at hpicture
      exact r.machine.advanced_shows.trans (.of_picture hpicture)
  | false =>
      rw [hbegins] at hpicture
      exact .of_picture hpicture

/-- How many frames a request shows: one for every instruction that changes the picture, and one
for a reset. -/
theorem fulfil_shows (q : Request) :
    r.machine.Shows ((r.completed q).countP Instruction.refreshes + [q].count .reset)
      (r.fulfil q).machine := by
  cases q with
  | advance meanwhile => exact r.advance_shows meanwhile
  | step => exact r.machine.step_shows
  | execute i => exact r.machine.execute_shows i
  | executeAll instructions => exact r.machine.executeAll_shows instructions
  | reset => exact .of_refresh rfl
  | act action => exact .of_picture (act_unkeyed Machine.picture_unkeyed r action)
  | load program =>
      refine .of_picture ?_
      unfold fulfil onMachine Machine.load
      dsimp only
      split <;> rfl
  | tick | setDelay value | setSound value | start panel => exact .of_picture rfl

theorem fulfilAll_shows (requests : List Request) :
    r.machine.Shows
      ((r.completedAll requests).countP Instruction.refreshes + requests.count .reset)
      (r.fulfilAll requests).machine := by
  induction requests generalizing r with
  | nil => exact .of_picture rfl
  | cons q rest ih =>
      have hall := (r.fulfil_shows q).trans (ih (r.fulfil q))
      rw [completedAll, List.countP_append, ← List.singleton_append, List.count_append]
      exact Nat.add_add_add_comm .. ▸ hall

/-- How many frames requests show, and that the last of them is the screen as it stands. -/
theorem framesShown_spec {σ : Type} [Display σ] (r : Run σ) (requests : List Request) :
    (r.framesShown requests).length =
        (r.completedAll requests).countP Instruction.refreshes + requests.count .reset ∧
      (r.fulfilAll requests).machine.screen =
        (r.framesShown requests).getLast?.getD r.machine.screen := by
  have htwin := r.like_showing
  obtain ⟨shown, hdisplay, hlength, hscreen⟩ :=
    fulfilAll_shows (r.withDisplay ([] : List Screen)) requests
  have hframes : r.framesShown requests = shown.reverse :=
    congrArg List.reverse (hdisplay.trans (List.append_nil shown))
  rw [hframes, htwin.completedAll_eq, (htwin.fulfilAll requests).machine.screen]
  refine ⟨List.length_reverse.trans hlength, ?_⟩
  rw [List.getLast?_reverse, hscreen, List.headD_eq_head?_getD]
  rfl

/-- What is found in a mailbox that is looked into after each of several batches of requests, by
whoever knows it: whether there is a new frame in it. -/
def looks (r : Run Mailbox) : List (List Request) → List Bool
  | [] => []
  | batch :: rest =>
      let s := r.fulfilAll batch
      s.machine.display.takeFresh.1 :: (s.withDisplay s.machine.display.takeFresh.2).looks rest

/-- Whether a frame is shown in each of several batches of requests. -/
def news {σ : Type} [Display σ] (r : Run σ) : List (List Request) → List Bool
  | [] => []
  | batch :: rest => (!(r.framesShown batch).isEmpty) :: (r.fulfilAll batch).news rest

theorem fresh_showAll (d : Mailbox) (frames : List Screen) :
    (Display.showAll d frames).fresh = (d.fresh || !frames.isEmpty) := by
  induction frames generalizing d with
  | nil => exact (Bool.or_false _).symm
  | cons frame rest ih => exact (ih _).trans (by simp [Display.refresh])

/-- A mailbox that was looked into tells of just the frames that came since. -/
theorem looks_eq_news {σ : Type} [Display σ] {r : Run Mailbox} {s : Run σ}
    (h : r.withDisplay () = s.withDisplay ()) (hseen : r.machine.display.fresh = false)
    (batches : List (List Request)) : r.looks batches = s.news batches := by
  induction batches generalizing r s with
  | nil => rfl
  | cons batch rest ih =>
      have hfirst : (r.fulfilAll batch).machine.display.fresh = !(s.framesShown batch).isEmpty := by
        rw [fulfilAll_display, fresh_showAll, hseen, framesShown_congr h, Bool.false_or]
      have hrest := ih (r := (r.fulfilAll batch).withDisplay
        (r.fulfilAll batch).machine.display.takeFresh.2) (fulfilAll_congr h batch) rfl
      simp only [looks, news, Mailbox.takeFresh, hfirst] at hrest ⊢
      rw [hrest]

/-- A display never shows a stale picture. From construction on it is shown one frame for every
instruction that changes the picture and is executed successfully, and one for every reset. The
last of them is the screen as it stands, which is blank as long as there was none. A mailbox
answers that there is a new frame exactly when one came since the last look. -/
theorem display_up_to_date {σ : Type} [Display σ] (settings : Settings) (random : Random.Source)
    (d : σ) (panel : Panel) (requests : List Request) (batches : List (List Request)) :
    let r := start (.fresh settings random d) panel
    let frames := r.framesShown requests
    (r.fulfilAll requests).machine.display = Display.showAll d frames ∧
      frames.length =
        (r.completedAll requests).countP Instruction.refreshes + requests.count .reset ∧
      (r.fulfilAll requests).machine.screen = frames.getLast?.getD .blank ∧
      (start (.fresh settings random Mailbox.empty) panel).looks batches = r.news batches := by
  intro r frames
  obtain ⟨hlength, hscreen⟩ := r.framesShown_spec requests
  have hsame : (start (.fresh settings random Mailbox.empty) panel).withDisplay () =
      r.withDisplay () := rfl
  exact ⟨r.fulfilAll_display requests, hlength, hscreen, looks_eq_news hsame rfl batches⟩

end Run

end Chip8

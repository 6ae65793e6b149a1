import Chip8.Machine.Readout
import Chip8.Proofs.Numerals
import Mathlib.Data.List.Basic

/-!
The text of a readout loses nothing. It is read from the front: each piece of it ends after a number
of characters that is known beforehand or where a character comes that it cannot hold, so that what
was written shows before what stands behind it is looked at.
-/

namespace Chip8

namespace Text

variable {α β γ : Type}

/-- A way of writing tells a part of what it writes if that part, and the text behind what was
written, can be told from the two together. -/
def Tells (write : α → List Char) (part : α → β) : Prop :=
  ∀ ⦃a b : α⦄ ⦃rest rest' : List Char⦄, write a ++ rest = write b ++ rest' →
    part a = part b ∧ rest = rest'

/-- What is always as long as it is this time ends there. -/
theorem tells_of_length {write : α → List Char} {part : α → β}
    (hlength : ∀ a b, (write a).length = (write b).length)
    (hpart : ∀ a b, write a = write b → part a = part b) : Tells write part := by
  intro a b rest rest' h
  obtain ⟨htext, hrest⟩ := List.append_inj h (hlength a b)
  exact ⟨hpart a b htext, hrest⟩

theorem append_cons_inj {c : α} {first second rest rest' : List α} (hfirst : c ∉ first)
    (hsecond : c ∉ second) (h : first ++ c :: rest = second ++ c :: rest') :
    first = second ∧ rest = rest' := by
  induction first generalizing second with
  | nil =>
      cases second with
      | nil => exact ⟨rfl, (List.cons.inj h).2⟩
      | cons d second => exact absurd (List.cons.inj h).1 (List.ne_of_not_mem_cons hsecond)
  | cons d first ih =>
      cases second with
      | nil => exact absurd (List.cons.inj h).1.symm (List.ne_of_not_mem_cons hfirst)
      | cons d' second =>
          obtain ⟨hhead, htail⟩ := List.cons.inj h
          obtain ⟨htexts, hrest⟩ := ih (List.not_mem_of_not_mem_cons hfirst)
            (List.not_mem_of_not_mem_cons hsecond) htail
          exact ⟨congrArg₂ List.cons hhead htexts, hrest⟩

/-- A line ends where the line ends. -/
theorem tells_line {write : α → List Char} {part : α → β} (hend : ∀ a, '\n' ∉ write a)
    (hpart : ∀ a b, write a = write b → part a = part b) :
    Tells (fun a => write a ++ ['\n']) part := by
  intro a b rest rest' h
  simp only [List.append_assoc, List.singleton_append] at h
  obtain ⟨htext, hrest⟩ := append_cons_inj (hend a) (hend b) h
  exact ⟨hpart a b htext, hrest⟩

namespace Tells

variable {write : α → List Char} {part : α → β}

theorem on {write : β → List Char} (h : Tells write id) (part : α → β) :
    Tells (fun a => write (part a)) part :=
  fun _ _ _ _ htext => h htext

/-- What stands in front may be known. -/
theorem behind (fixed : List Char) (h : Tells write part) :
    Tells (fun a => fixed ++ write a) part := by
  intro a b rest rest' htext
  rw [List.append_assoc, List.append_assoc] at htext
  exact h (List.append_cancel_left htext)

/-- What stands behind may follow from what was told. -/
theorem before (h : Tells write part) (known : β → List Char) :
    Tells (fun a => write a ++ known (part a)) part := by
  intro a b rest rest' htext
  rw [List.append_assoc, List.append_assoc] at htext
  obtain ⟨hpart, hrest⟩ := h htext
  rw [hpart] at hrest
  exact ⟨hpart, List.append_cancel_left hrest⟩

theorem append (h : Tells write part) {write' : α → List Char} {part' : α → γ}
    (h' : Tells write' part') :
    Tells (fun a => write a ++ write' a) fun a => (part a, part' a) := by
  intro a b rest rest' htext
  rw [List.append_assoc, List.append_assoc] at htext
  obtain ⟨hpart, hrest⟩ := h htext
  obtain ⟨hpart', hrest'⟩ := h' hrest
  exact ⟨Prod.ext hpart hpart', hrest'⟩

/-- What was told may be put together. -/
theorem map (h : Tells write part) (f : β → γ) : Tells write fun a => f (part a) := by
  intro a b rest rest' htext
  obtain ⟨hpart, hrest⟩ := h htext
  exact ⟨congrArg f hpart, hrest⟩

/-- Items stand one behind the other, up to a stop that none of them begins with. -/
theorem items {write : α → List Char} (h : Tells write id) (stop : List Char)
    (hstop : ∀ a rest rest', write a ++ rest ≠ stop ++ rest') :
    Tells (fun items : List α => items.flatMap write ++ stop) id := by
  intro items
  induction items with
  | nil =>
      intro items' rest rest' htext
      cases items' with
      | nil => exact ⟨rfl, List.append_cancel_left htext⟩
      | cons item' more' =>
          simp only [List.flatMap_cons, List.append_assoc] at htext
          exact absurd htext.symm (hstop item' _ _)
  | cons item more ih =>
      intro items' rest rest' htext
      cases items' with
      | nil =>
          simp only [List.flatMap_cons, List.append_assoc] at htext
          exact absurd htext (hstop item _ _)
      | cons item' more' =>
          simp only [List.flatMap_cons, List.append_assoc] at htext
          obtain ⟨hitem, hmore⟩ := h htext
          rw [← List.append_assoc, ← List.append_assoc] at hmore
          obtain ⟨hitems, hrest⟩ := ih hmore
          exact ⟨congrArg₂ List.cons hitem hitems, hrest⟩

theorem lastCell (h : Tells write part) : Tells (fun a => cellLine [write a]) part :=
  h.before fun _ => ['\n']

/-- A cell may be as long as its own text tells, because it is known what stands between cells. -/
theorem cell (h : Tells write part) {next : α → List Char} {more : α → List (List Char)}
    {part' : α → γ} (h' : Tells (fun a => cellLine (next a :: more a)) part') :
    Tells (fun a => cellLine (write a :: next a :: more a)) fun a => (part a, part' a) :=
  h.append (h'.behind [' ', ' '])

end Tells

theorem tells_hexByte : Tells hexByte id := by
  apply tells_of_length
  · intro byte byte'
    rfl
  · intro byte byte' htext
    exact hexByte_inj htext

theorem tells_hexMarked : Tells (hexMarked 4) id := by
  have hwidth : ∀ word, (hexMarked 4 word).length = 6 := by
    intro word
    rw [hexMarked, hex_four]
    rfl
  apply tells_of_length
  · intro word word'
    exact (hwidth word).trans (hwidth word').symm
  · intro word word' htext
    have hmarked := (List.cons.inj htext).2
    exact hex_inj 4 (List.cons.inj hmarked).2

end Text

open Text

namespace Mode

theorem newline_not_mem_text (m : Mode) : '\n' ∉ m.text := by
  cases m with
  | running => decide
  | waitingForKey register =>
      have hdecimal : '\n' ∉ decimal register.toNat := not_mem_decimal register.toNat rfl
      unfold text
      simp [hdecimal]

theorem text_inj {m m' : Mode} (h : m.text = m'.text) : m = m' := by
  cases m with
  | running =>
      cases m' with
      | running => rfl
      | waitingForKey register' => cases congrArg List.head? h
  | waitingForKey register =>
      cases m' with
      | running => cases congrArg List.head? h
      | waitingForKey register' =>
          unfold text at h
          have hfront := List.append_cancel_right h
          have hdecimal := List.append_cancel_left hfront
          rw [UInt8.toNat_inj.1 (decimal_inj hdecimal)]

end Mode

theorem keyChar_inj {key : Nat} {down down' : Bool} (h : keyChar key down = keyChar key down') :
    down = down' := by
  have hdot : hexDigit key ≠ '.' := by
    intro heq
    have hvalue := digitValue?_hexDigit key
    rw [heq] at hvalue
    cases hvalue
  cases down with
  | true =>
      cases down' with
      | true => rfl
      | false => exact absurd h hdot
  | false =>
      cases down' with
      | true => exact absurd h.symm hdot
      | false => rfl

namespace Readout

/-- The bytes of some registers. -/
def registerBytes (r : Readout) (start count : Nat) : List UInt8 :=
  (List.range count).map fun n => r.v.toList.getD (start + n) 0

theorem tells_opcodeLine :
    Tells (fun r : Readout => cellLine ["opcode ".toList ++ hexMarked 4 r.opcode,
      (Instruction.decode r.opcode).mnemonic]) opcode :=
  ((tells_hexMarked.on opcode).behind "opcode ".toList).before fun op =>
    ' ' :: ' ' :: cellLine [(Instruction.decode op).mnemonic]

theorem tells_placesLine :
    Tells (fun r : Readout => cellLine ["PC ".toList ++ hexMarked 4 r.pc,
      "I ".toList ++ hexMarked 4 r.index, r.mode.text]) fun r => (r.pc, r.index, r.mode) := by
  have hpc := (tells_hexMarked.on pc).behind "PC ".toList
  have hindex := (tells_hexMarked.on index).behind "I ".toList
  have hmode : Tells (fun r : Readout => cellLine [r.mode.text]) mode :=
    tells_line (fun r => r.mode.newline_not_mem_text) fun _ _ => Mode.text_inj
  exact hpc.cell (hindex.cell hmode)

theorem tells_registerLine (start count : Nat) :
    Tells (fun r : Readout => cellLine (r.registerCells start count))
      (registerBytes · start count) := by
  have hcell : ∀ n, Tells (fun r : Readout =>
      registerCell (start + n).toUInt8 (r.v.toList.getD (start + n) 0))
      (·.v.toList.getD (start + n) 0) := fun n =>
    ((tells_hexByte.on _).behind [' ']).behind (registerName (start + n).toUInt8)
  unfold registerCells registerBytes
  induction List.range count with
  | nil => exact tells_of_length (fun _ _ => rfl) fun _ _ _ => rfl
  | cons n rest ih =>
      cases rest with
      | nil => exact (hcell n).lastCell.map fun byte => [byte]
      | cons n' rest => exact ((hcell n).cell ih).map fun (byte, bytes) => byte :: bytes

theorem tells_timersLine :
    Tells (fun r : Readout => cellLine ["DT ".toList ++ hexByte r.timers.delay,
      "ST ".toList ++ hexByte r.timers.sound]) timers := by
  have hdelay := (tells_hexByte.on fun r : Readout => r.timers.delay).behind "DT ".toList
  have hsound := (tells_hexByte.on fun r : Readout => r.timers.sound).behind "ST ".toList
  exact (hdelay.cell hsound.lastCell).map fun (delay, sound) => Timers.mk delay sound

theorem tells_keyLine : Tells keyLine keys := by
  apply tells_of_length
  · intro r r'
    simp [keyLine]
  · intro r r' h
    have hchars := List.append_cancel_right h
    apply Vector.ext
    intro key hkey
    have hchar := congrArg (·[key]?) hchars
    simp only [List.getElem?_map, List.getElem?_zipIdx, Nat.zero_add, Vector.getElem?_toList,
      Option.map_map] at hchar
    rw [Vector.getElem?_eq_getElem hkey, Vector.getElem?_eq_getElem hkey] at hchar
    exact keyChar_inj (Option.some.inj hchar)

theorem tells_stackLine : Tells stackLine stack := by
  have haddress : Tells (fun address => ' ' :: hexMarked 4 address) id :=
    tells_hexMarked.behind [' ']
  exact (haddress.items ['\n'] (by simp)).on stack

/-- The two lines of registers hold all of them. -/
theorem toList_v (r : Readout) : r.v.toList = r.registerBytes 0 8 ++ r.registerBytes 8 8 := by
  apply List.ext_getElem
  · simp [registerBytes]
  · intro k hk hk'
    have hlt : k < 16 := by simpa using hk
    simp only [registerBytes, List.getElem_append, List.length_map, List.length_range]
    split
    · simp [hlt]
    · next hhigh =>
        have hsame : 8 + (k - 8) = k := Nat.add_sub_of_le (Nat.not_lt.1 hhigh)
        simp [hsame, hlt]

/-- Two readouts have the same text only if they are equal: every part of one, also the number of
calls and the register that a key is awaited for, can be read back from the text. -/
theorem text_eq_iff (a b : Readout) : a.text = b.text ↔ a = b := by
  constructor
  · intro h
    have htext : a.text ++ [] = b.text ++ [] := by rw [h]
    simp only [text, List.append_assoc] at htext
    -- From the front, each line tells its part and leaves the lines behind it.
    obtain ⟨hopcode, hafterOpcode⟩ := tells_opcodeLine htext
    obtain ⟨hplaces, hafterPlaces⟩ := tells_placesLine hafterOpcode
    obtain ⟨(hlow : a.registerBytes 0 8 = b.registerBytes 0 8), hafterLow⟩ :=
      tells_registerLine 0 8 hafterPlaces
    obtain ⟨(hhigh : a.registerBytes 8 8 = b.registerBytes 8 8), hafterHigh⟩ :=
      tells_registerLine 8 8 hafterLow
    obtain ⟨htimers, hafterTimers⟩ := tells_timersLine hafterHigh
    obtain ⟨hkeys, hafterKeys⟩ := tells_keyLine (List.append_cancel_left hafterTimers)
    obtain ⟨hstack, -⟩ := tells_stackLine (List.append_cancel_left hafterKeys)
    have hv : a.v = b.v := by
      rw [← Vector.toList_inj, toList_v, toList_v, hlow, hhigh]
    obtain ⟨hpc, hindex, hmode⟩ : a.pc = b.pc ∧ a.index = b.index ∧ a.mode = b.mode := by
      simpa only [Prod.mk.injEq] using hplaces
    cases a
    cases b
    simp only [mk.injEq]
    exact ⟨hopcode, hpc, hindex, hv, htimers, hkeys, hstack, hmode⟩
  · exact congrArg text

end Readout

end Chip8

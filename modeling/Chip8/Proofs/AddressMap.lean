import Chip8.Proofs.Stores
import Mathlib.Data.List.Induction
import Mathlib.Data.List.Nodup

/-!
Memory as a map from addresses to bytes. Whatever was written to fresh memory or loaded into it, an
address holds the byte that was stored there last, or what the last reset put there. A load is a
copy of the program over a row of cells, and it comes to the same as writing the bytes one by one in
any order, for both end below the same bound. The last cell lies behind it and stays zero.
-/

namespace Chip8.Memory

/-- Something that changes memory. -/
inductive Edit
  | write (address : UInt16) (byte : UInt8)
  | load (program : List UInt8)
  | reset
deriving DecidableEq

/-- Memory after a change. A program that is refused leaves it as it was. -/
def edit (m : Memory) : Edit → Memory
  | .write address byte => m.write address byte
  | .load program => (m.loadProgram program).toOption.getD m
  | .reset => .initial

def editAll (m : Memory) (edits : List Edit) : Memory :=
  edits.foldl edit m

/-- Bytes one behind the other, each with the address it goes to. -/
def placed (address : UInt16) (bytes : List UInt8) : List (UInt16 × UInt8) :=
  (stretch address bytes.length).zip bytes

/-- Writes bytes to their addresses, one after the other. -/
def writeAll (m : Memory) (stores : List (UInt16 × UInt8)) : Memory :=
  stores.foldl (fun m s => m.write s.1 s.2) m

/-- What a change stores where, as far as it is not lost. -/
def Edit.stores : Edit → List (UInt16 × UInt8)
  | .write address byte => if address.toNat < 0xFFF then [(address, byte)] else []
  | .load program => if program.length ≤ 3583 then placed 0x200 program else []
  | .reset => []

/-- What was stored where since the last reset, the last first. -/
def recentStores (edits : List Edit) : List (UInt16 × UInt8) :=
  (edits.reverse.takeWhile (· ≠ .reset)).flatMap fun e => e.stores.reverse

/-- What fresh memory holds: the font, and zero behind it. -/
def image (address : UInt16) : UInt8 :=
  fontRows[address.toNat]?.getD 0

section Writes

variable {m : Memory}

theorem write_comm {a b : UInt16} {x y : UInt8} (h : a ≠ b) :
    (m.write a x).write b y = (m.write b y).write a x := by
  have hne : a.toNat ≠ b.toNat := fun heq => h (UInt16.toNat_inj.1 heq)
  by_cases ha : a.toNat < bound
  · by_cases hb : b.toNat < bound
    · simp only [write, ha, hb, dif_pos, Vector.set_comm x y hne]
    · rw [write_of_bound_le (Nat.not_lt.1 hb), write_of_bound_le (Nat.not_lt.1 hb)]
  · rw [write_of_bound_le (Nat.not_lt.1 ha), write_of_bound_le (Nat.not_lt.1 ha)]

/-- After some bytes were stored below the bound, an address holds the last one it was given. -/
theorem read_writeAll {stores : List (UInt16 × UInt8)} {a : UInt16}
    (h : ∀ s ∈ stores, s.1.toNat < bound) :
    (m.writeAll stores).read a = (stores.reverse.lookup a).getD (m.read a) := by
  induction stores using List.reverseRecOn with
  | nil => rfl
  | append_singleton stores s ih =>
      obtain ⟨b, byte⟩ := s
      have hb : b.toNat < bound := h (b, byte) (by simp)
      have hstores : ∀ s ∈ stores, s.1.toNat < bound := fun s hs => h s (by simp [hs])
      have hlast : m.writeAll (stores ++ [(b, byte)]) = (m.writeAll stores).write b byte := by
        simp only [writeAll, List.foldl_append, List.foldl_cons, List.foldl_nil]
      rw [hlast, List.reverse_append, List.reverse_singleton, List.singleton_append,
        List.lookup_cons]
      by_cases hab : a = b
      · rw [hab, read_write_self hb, beq_self_eq_true]
        rfl
      · rw [read_write_of_ne (Ne.symm hab), beq_eq_false_iff_ne.2 hab]
        exact ih hstores

theorem placed_cons (address : UInt16) (byte : UInt8) (rest : List UInt8) :
    placed address (byte :: rest) = (address, byte) :: placed (address + 1) rest := by
  rw [placed, List.length_cons, stretch_succ, List.zip_cons_cons]
  rfl

theorem overlay_eq_writeAll (m : Memory) (address : UInt16) (bytes : List UInt8) :
    m.overlay address bytes = m.writeAll (placed address bytes) := by
  induction bytes generalizing m address with
  | nil => rfl
  | cons byte rest ih =>
      rw [overlay, ih, placed_cons]
      rfl

theorem placed_addresses (address : UInt16) (bytes : List UInt8) :
    (placed address bytes).map Prod.fst = stretch address bytes.length := by
  apply List.map_fst_zip
  simp only [stretch, List.length_map, List.length_range, Nat.le_refl]

theorem nodup_stretch {address : UInt16} {count : Nat} (h : count ≤ 65536) :
    (stretch address count).Nodup := by
  apply List.nodup_range.map_on
  intro i hi j hj heq
  rw [List.mem_range] at hi hj
  have htoNat := congrArg UInt16.toNat (UInt16.add_right_inj address |>.1 heq)
  simp only [Nat.toUInt16_eq, UInt16.toNat_ofNat', Nat.reducePow] at htoNat
  omega

theorem placed_lt_bound {bytes : List UInt8} (h : bytes.length ≤ 3583) {s : UInt16 × UInt8}
    (hs : s ∈ placed 0x200 bytes) : s.1.toNat < bound := by
  have hmem : s.1 ∈ stretch 0x200 bytes.length := by
    rw [← placed_addresses]
    exact List.mem_map_of_mem hs
  obtain ⟨k, hk, heq⟩ := mem_stretch.1 hmem
  have hbound : bound = 4095 := rfl
  rw [heq, UInt16.toNat_add]
  simp only [UInt16.reduceToNat, Nat.toUInt16_eq, UInt16.toNat_ofNat', Nat.reducePow]
  omega

/-- Bytes that have an address each are written in any order. -/
theorem writeAll_perm {address : UInt16} {bytes : List UInt8} (h : bytes.length ≤ 65536)
    {stores : List (UInt16 × UInt8)} (hperm : stores.Perm (placed address bytes)) :
    m.writeAll stores = m.writeAll (placed address bytes) := by
  have hnodup : (stores.map Prod.fst).Nodup := by
    rw [(hperm.map Prod.fst).nodup_iff, placed_addresses]
    exact nodup_stretch h
  apply hperm.foldl_eq'
  intro s hs t ht z
  by_cases hst : s = t
  · rw [hst]
  · exact write_comm fun heq => hst (List.inj_on_of_nodup_map hnodup hs ht heq)

end Writes

section Cells

theorem cells_write {m : Memory} {address : UInt16} {byte : UInt8} (h : address.toNat < bound) :
    (m.write address byte).cells.toList = m.cells.toList.set address.toNat byte := by
  simp only [write, h, dif_pos, Vector.toList_set]

/-- Bytes that end below the bound replace the cells they are written to, and those only. -/
theorem cells_overlay {m : Memory} {address : UInt16} {bytes : List UInt8}
    (h : address.toNat + bytes.length ≤ bound) :
    (m.overlay address bytes).cells.toList = m.cells.toList.take address.toNat ++ bytes ++
      m.cells.toList.drop (address.toNat + bytes.length) := by
  induction bytes generalizing m address with
  | nil => simp [overlay]
  | cons byte rest ih =>
      have hbound : bound = 4095 := rfl
      rw [List.length_cons] at h
      have hnext : (address + 1).toNat = address.toNat + 1 := by
        rw [UInt16.toNat_add, UInt16.toNat_one]
        omega
      have hcell : address.toNat < m.cells.toList.length := by
        rw [Vector.length_toList]
        omega
      have hhere : (m.cells.toList.set address.toNat byte).take (address.toNat + 1) =
          m.cells.toList.take address.toNat ++ [byte] := by
        rw [List.take_add_one, List.getElem?_set_self hcell, List.take_set_of_le (Nat.le_refl _)]
        rfl
      rw [overlay, ih (by omega), hnext, cells_write (by omega), hhere,
        List.drop_set_of_lt (by omega), List.length_cons, Nat.add_right_comm, Nat.add_assoc]
      simp only [List.append_assoc, List.cons_append, List.nil_append]

theorem last_write (m : Memory) (address : UInt16) (byte : UInt8) :
    (m.write address byte).cells[4095] = m.cells[4095] := by
  unfold write
  split
  · next h =>
      exact Vector.getElem_set_ne (lt_size_of_lt_bound h) _ (Nat.ne_of_lt h)
  · rfl

theorem last_overlay (m : Memory) (address : UInt16) (bytes : List UInt8) :
    (m.overlay address bytes).cells[4095] = m.cells[4095] := by
  induction bytes generalizing m address with
  | nil => rfl
  | cons byte rest ih => rw [overlay, ih, last_write]

/-- Memories are told apart by reading them, but for the last cell. -/
theorem eq_of_read_eq {m m' : Memory} (hlast : m.cells[4095] = m'.cells[4095])
    (h : ∀ a, m.read a = m'.read a) : m = m' := by
  have hcells : m.cells = m'.cells := by
    apply Vector.ext
    intro k hk
    by_cases hbound : k < bound
    · have hread := h k.toUInt16
      have htoNat : k.toUInt16.toNat = k := by
        simp only [Nat.toUInt16_eq, UInt16.toNat_ofNat', Nat.reducePow]
        omega
      simpa only [read, htoNat, hbound, dif_pos] using hread
    · have hk' : k = 4095 := Nat.le_antisymm (Nat.le_of_lt_succ hk) (Nat.not_lt.1 hbound)
      subst hk'
      exact hlast
  cases m
  cases m'
  exact congrArg mk hcells

end Cells

section Edits

theorem loadProgram_of_le {m : Memory} {program : List UInt8} (h : program.length ≤ 3583) :
    m.loadProgram program = .ok (m.overlay programStart program) :=
  loadProgram_eq_ok_iff.2 ⟨h, rfl⟩

theorem loadProgram_of_lt {m : Memory} {program : List UInt8} (h : 3583 < program.length) :
    m.loadProgram program = .error (.programTooLarge program.length 3583) :=
  if_neg (Nat.not_le.2 h)

/-- But for a reset, a change does nothing else than store bytes. -/
theorem edit_eq_writeAll (m : Memory) {e : Edit} (h : e ≠ .reset) :
    m.edit e = m.writeAll e.stores := by
  cases e with
  | write address byte =>
      simp only [edit, Edit.stores]
      split
      · rfl
      · next hbound => exact write_of_bound_le (Nat.not_lt.1 hbound)
  | load program =>
      simp only [edit, Edit.stores]
      split
      · next hfits =>
          rw [loadProgram_of_le hfits, ← overlay_eq_writeAll]
          rfl
      · next hlarge =>
          rw [loadProgram_of_lt (Nat.not_le.1 hlarge)]
          rfl
  | reset => exact absurd rfl h

theorem Edit.stores_lt_bound {e : Edit} {s : UInt16 × UInt8} (hs : s ∈ e.stores) :
    s.1.toNat < bound := by
  cases e with
  | write address byte =>
      simp only [stores] at hs
      split at hs
      · next hbound =>
          rw [List.mem_singleton.1 hs]
          exact hbound
      · cases hs
  | load program =>
      simp only [stores] at hs
      split at hs
      · next hfits => exact placed_lt_bound hfits hs
      · cases hs
  | reset => cases hs

theorem editAll_nil (m : Memory) : m.editAll [] = m :=
  rfl

theorem editAll_append (m : Memory) (edits : List Edit) (e : Edit) :
    m.editAll (edits ++ [e]) = (m.editAll edits).edit e := by
  simp only [editAll, List.foldl_append, List.foldl_cons, List.foldl_nil]

theorem recentStores_nil : recentStores [] = [] :=
  rfl

theorem recentStores_reset (edits : List Edit) : recentStores (edits ++ [.reset]) = [] := by
  simp [recentStores]

theorem recentStores_append (edits : List Edit) {e : Edit} (h : e ≠ .reset) :
    recentStores (edits ++ [e]) = e.stores.reverse ++ recentStores edits := by
  simp [recentStores, h]

theorem read_initial (a : UInt16) : initial.read a = image a := by
  have hlength : fontRows.length = 80 := rfl
  by_cases ha : a.toNat < 80
  · have hrow : fontRows[a.toNat]? = some fontRows[a.toNat] := List.getElem?_eq_getElem ha
    rw [image, hrow]
    exact read_overlay (by decide) ha (Nat.zero_add _).symm
  · have hnone : fontRows[a.toNat]? = none := List.getElem?_eq_none (Nat.not_lt.1 ha)
    rw [image, hnone, initial, read_overlay_of_not_mem]
    · simp [read]
    · rw [mem_stretch]
      rintro ⟨k, hk, rfl⟩
      simp only [Nat.toUInt16_eq, UInt16.zero_add, UInt16.toNat_ofNat', Nat.reducePow] at ha
      omega

theorem last_initial : initial.cells[4095] = 0 := by
  rw [initial, last_overlay]
  exact Vector.getElem_replicate _

/-- Memory is the map that its history spells out. The induction is on the change made last: a reset
forgets all before it, and the stores of any other one are looked up first. -/
theorem read_editAll (edits : List Edit) (a : UInt16) :
    (initial.editAll edits).read a = ((recentStores edits).lookup a).getD (image a) := by
  induction edits using List.reverseRecOn with
  | nil =>
      rw [editAll_nil, recentStores_nil]
      exact read_initial a
  | append_singleton edits e ih =>
      rw [editAll_append]
      by_cases hreset : e = .reset
      · rw [hreset, recentStores_reset]
        exact read_initial a
      · rw [edit_eq_writeAll _ hreset, read_writeAll fun s hs => Edit.stores_lt_bound hs, ih,
          recentStores_append edits hreset, List.lookup_append]
        cases e.stores.reverse.lookup a with
        | none => rfl
        | some byte => rfl

/-- Nothing reaches the last cell. -/
theorem last_editAll (edits : List Edit) : (initial.editAll edits).cells[4095] = 0 := by
  induction edits using List.reverseRecOn with
  | nil =>
      rw [editAll_nil]
      exact last_initial
  | append_singleton edits e ih =>
      rw [editAll_append]
      cases e with
      | write address byte => exact (last_write _ address byte).trans ih
      | load program =>
          simp only [edit, loadProgram]
          split
          · exact (last_overlay _ _ program).trans ih
          · exact ih
      | reset => exact last_initial

end Edits

/-- What it means that memory takes a program in: its cells from `0x200` on are the program's bytes,
all other cells are as they were, and writing the bytes one by one, in whatever order, comes to the
same. -/
structure TakesIn (m m' : Memory) (program : List UInt8) : Prop where
  cells : m'.cells.toList =
    m.cells.toList.take 0x200 ++ program ++ m.cells.toList.drop (0x200 + program.length)
  writes : ∀ stores, stores.Perm (placed 0x200 program) → m.writeAll stores = m'

theorem takesIn_overlay (m : Memory) {program : List UInt8} (h : program.length ≤ 3583) :
    m.TakesIn (m.overlay programStart program) program := by
  have hstart : programStart.toNat + program.length ≤ bound := by
    have htoNat : programStart.toNat = 0x200 := rfl
    have hbound : bound = 4095 := rfl
    omega
  constructor
  case cells => exact cells_overlay hstart
  case writes =>
    intro stores hperm
    rw [overlay_eq_writeAll]
    exact writeAll_perm (by omega) hperm

/-- However fresh memory was changed, an address holds what was stored there last since the last
reset, or else what fresh memory holds there, and reading the addresses tells all there is to tell.
Where no cell is reached, zero is read and a write is lost. A program of up to 3583 bytes is taken
in; a larger one is refused and changes nothing. -/
theorem edits_refine_address_map (edits : List Edit) :
    let m := initial.editAll edits
    (∀ a, m.read a = ((recentStores edits).lookup a).getD (image a)) ∧
      (∀ a byte, 0xFFF ≤ a.toNat → m.read a = 0 ∧ m.edit (.write a byte) = m) ∧
      (∀ program, program.length ≤ 3583 → ∃ m', m.loadProgram program = .ok m' ∧
        m.edit (.load program) = m' ∧ m.TakesIn m' program) ∧
      (∀ program, 3583 < program.length →
        m.loadProgram program = .error (.programTooLarge program.length 3583) ∧
        m.edit (.load program) = m) ∧
      m.cells[4095] = 0 ∧
      ∀ others, (∀ a, m.read a = (initial.editAll others).read a) →
        m = initial.editAll others := by
  intro m
  refine ⟨read_editAll edits, ?_, ?_, ?_, last_editAll edits, ?_⟩
  · intro a byte ha
    exact ⟨read_of_bound_le ha, write_of_bound_le ha⟩
  · intro program hfits
    have hload : m.loadProgram program = .ok _ := loadProgram_of_le hfits
    refine ⟨m.overlay programStart program, hload, ?_, takesIn_overlay m hfits⟩
    simp only [edit, hload]
    rfl
  · intro program hlarge
    have hload : m.loadProgram program = .error _ := loadProgram_of_lt hlarge
    refine ⟨hload, ?_⟩
    simp only [edit, hload]
    rfl
  · intro others hread
    have hlast : m.cells[4095] = (initial.editAll others).cells[4095] := by
      rw [last_editAll edits, last_editAll others]
    exact eq_of_read_eq hlast hread

/-- A program is loaded over a longer one, whose end stays. What was written before the reset is
forgotten, and a write to the first address without a cell is lost. -/
theorem edits_refine_address_map_shorter :
    let edits : List Edit :=
      [.write 0x300 7, .reset, .load [1, 2, 3], .load [9], .write 0xFFF 5]
    let m := initial.editAll edits
    m.read 0 = 0xF0 ∧ m.read 0x200 = 9 ∧ m.read 0x202 = 3 ∧ m.read 0x300 = 0 ∧ m.read 0xFFF = 0 ∧
      m.edit (.load [5, 6]) = m.writeAll [(0x201, 6), (0x200, 5)] := by
  intro edits m
  obtain ⟨hread, hpast, hfits, -, -, -⟩ := edits_refine_address_map edits
  obtain ⟨m', -, hload, htaken⟩ := hfits [5, 6] (by decide)
  refine ⟨(hread 0).trans (by decide), (hread 0x200).trans (by decide),
    (hread 0x202).trans (by decide), (hread 0x300).trans (by decide),
    (hpast 0xFFF 0 (by decide)).1, hload.trans ?_⟩
  exact (htaken.writes _ (List.Perm.swap (0x200, 5) (0x201, 6) [])).symm

end Chip8.Memory

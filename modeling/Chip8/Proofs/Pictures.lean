import Chip8.Proofs.Numerals
import Chip8.Proofs.Toggles
import Chip8.Screen.Picture

/-!
The picture of a screen, read back. It has a line for every row of the screen and in it a character
for every pixel, so its lines are the rows in another spelling. A text is the picture of one screen
or of none, and its hashes are the lit pixels.
-/

namespace Chip8

namespace Text

/-- The lines of a text, if every line has its line end, also the last. -/
def lines? (text : List Char) : Option (List (List Char)) :=
  if (text.splitOn '\n').getLast? = some [] then some (text.splitOn '\n').dropLast else none

/-- What stands behind the last line end is a piece, too, and empty. -/
theorem intercalate_lines (lines : List (List Char)) :
    ['\n'].intercalate (lines ++ [[]]) = lines.flatMap (· ++ ['\n']) := by
  induction lines with
  | nil => rfl
  | cons line rest ih =>
      rw [List.flatMap_cons, ← ih]
      cases rest with
      | nil => simp
      | cons next more =>
          rw [List.cons_append, List.cons_append, List.intercalate_cons_cons]

theorem lines?_flatMap {lines : List (List Char)} (h : ∀ line ∈ lines, '\n' ∉ line) :
    lines? (lines.flatMap (· ++ ['\n'])) = some lines := by
  have hpieces : (lines.flatMap (· ++ ['\n'])).splitOn '\n' = lines ++ [[]] := by
    rw [← intercalate_lines]
    apply List.splitOn_intercalate
    · intro piece hpiece
      obtain hline | hlast := List.mem_append.1 hpiece
      · exact h piece hline
      · rw [List.mem_singleton.1 hlast]
        exact List.not_mem_nil
    · simp
  simp [lines?, hpieces]

theorem eq_of_lines? {text : List Char} {lines : List (List Char)} (h : lines? text = some lines) :
    text = lines.flatMap (· ++ ['\n']) := by
  unfold lines? at h
  split at h
  · next hlast =>
      obtain ⟨others, hpieces⟩ := List.getLast?_eq_some_iff.1 hlast
      rw [hpieces, List.dropLast_concat, Option.some.injEq] at h
      rw [← h, ← intercalate_lines, ← hpieces]
      exact (List.intercalate_splitOn _).symm
  · cases h

example : lines? "#.\n\n".toList = some ["#.".toList, []] ∧ lines? "#.\n#".toList = none := by
  decide

/-- A list is read just from what it is written as, if its items are. -/
theorem mapM_eq_some_iff {α β : Type} {read : α → Option β} {write : β → α}
    (h : ∀ a b, read a = some b ↔ a = write b) {texts : List α} {items : List β} :
    texts.mapM read = some items ↔ texts = items.map write := by
  induction texts generalizing items with
  | nil => cases items <;> simp
  | cons a rest ih => cases items <;> simp [Option.bind_eq_some_iff, h, ih]

end Text

/-- The pixel that a character stands for. -/
def pixelOfChar? : Char → Option Bool
  | '#' => some true
  | '.' => some false
  | _ => none

theorem pixelOfChar?_eq_some_iff (c : Char) (lit : Bool) :
    pixelOfChar? c = some lit ↔ c = pixelChar lit := by
  constructor
  · intro h
    unfold pixelOfChar? at h
    split at h <;> cases h <;> rfl
  · rintro rfl
    cases lit <;> rfl

namespace Screen

/-! The rows of a screen are its pixels, cut into pieces. -/

theorem length_rows (s : Screen) : s.rows.length = 32 := by
  simp [rows]

theorem length_row (s : Screen) (y : Nat) : (s.row y).length = 64 := by
  simp [row]

theorem rows_getElem? (s : Screen) (y : Fin 32) : s.rows[y.val]? = some (s.row y) := by
  simp [rows]

theorem row_getElem? (s : Screen) (x : Fin 64) (y : Nat) :
    (s.row y)[x.val]? = some (s.get x y) := by
  simp [row]

theorem lengths_rows (s : Screen) : s.rows.map List.length = List.replicate 32 64 := by
  simp [rows, List.map_map, Function.comp_def, length_row]

theorem map_range_eq_ofFn {α : Type} (f : Nat → α) (n : Nat) :
    (List.range n).map f = List.ofFn fun k : Fin n => f k := by
  rw [List.ofFn_eq_map, ← List.map_coe_finRange_eq_range, List.map_map]
  rfl

theorem get_mod_div (s : Screen) {k : Nat} (hk : k < 2048) :
    s.get (k % 64) (k / 64) = s.pixels[k] := by
  have hplace : place (k % 64) (k / 64) = ⟨k, hk⟩ := by
    simp only [place, Fin.mk.injEq]
    omega
  simp only [get, hplace, Fin.getElem_fin]

theorem toList_pixels (s : Screen) :
    s.pixels.toList = List.ofFn fun p : Fin (32 * 64) => s.get (p % 64) (p / 64) := by
  apply List.ext_getElem
  · rw [Vector.length_toList, List.length_ofFn]
  · intro k hk hk'
    rw [Vector.length_toList] at hk
    rw [List.getElem_ofFn, Vector.getElem_toList]
    exact (s.get_mod_div hk).symm

theorem flatten_rows (s : Screen) : s.rows.flatten = s.pixels.toList := by
  rw [toList_pixels, List.ofFn_mul, rows, map_range_eq_ofFn]
  congr 2
  funext y
  rw [row, map_range_eq_ofFn]
  congr 1
  funext x
  have hcolumn : (y.val * 64 + x.val) % 64 = x := by omega
  have hrow : (y.val * 64 + x.val) / 64 = y := by omega
  rw [hcolumn, hrow]

theorem size_flatten {rows : List (List Bool)} (h : rows.map List.length = List.replicate 32 64) :
    rows.flatten.toArray.size = 2048 := by
  rw [List.size_toArray, List.length_flatten, h]
  rfl

/-- The screen with some rows, if they fill one. -/
def ofRows? (rows : List (List Bool)) : Option Screen :=
  if h : rows.map List.length = List.replicate 32 64 then
    some ⟨⟨rows.flatten.toArray, size_flatten h⟩⟩
  else none

theorem ofRows?_eq_some_iff {rows : List (List Bool)} {s : Screen} :
    ofRows? rows = some s ↔ rows = s.rows := by
  constructor
  · intro h
    unfold ofRows? at h
    split at h
    · next hshape =>
        rw [List.eq_iff_flatten_eq, hshape, lengths_rows, flatten_rows, ← Option.some.inj h]
        exact ⟨rfl, rfl⟩
    · cases h
  · rintro rfl
    rw [ofRows?, dif_pos s.lengths_rows]
    congr 2
    exact Vector.toList_inj.1 s.flatten_rows

/-- The screen that a text is the picture of. -/
def ofPicture? (text : List Char) : Option Screen := do
  let lines ← Text.lines? text
  let rows ← lines.mapM fun line => line.mapM pixelOfChar?
  ofRows? rows

/-- The lines of a picture, without their line ends. -/
def lines (s : Screen) : List (List Char) :=
  s.rows.map (List.map pixelChar)

theorem picture_eq_flatMap (s : Screen) : s.picture = s.lines.flatMap (· ++ ['\n']) := by
  rw [lines, List.flatMap_map]
  rfl

theorem lines?_picture (s : Screen) : Text.lines? s.picture = some s.lines := by
  rw [picture_eq_flatMap]
  apply Text.lines?_flatMap
  intro line hline hend
  obtain ⟨row, -, rfl⟩ := List.mem_map.1 hline
  obtain ⟨lit, -, hchar⟩ := List.mem_map.1 hend
  cases lit <;> cases hchar

/-- A text is read as a screen just if it is the picture of it. -/
theorem ofPicture?_eq_some_iff {text : List Char} {s : Screen} :
    ofPicture? text = some s ↔ text = s.picture := by
  have hline : ∀ (line : List Char) (row : List Bool),
      line.mapM pixelOfChar? = some row ↔ line = row.map pixelChar :=
    fun line row => Text.mapM_eq_some_iff pixelOfChar?_eq_some_iff
  have hlines : ∀ lines, (lines.mapM fun line => line.mapM pixelOfChar?) = some s.rows ↔
      lines = s.lines :=
    fun lines => Text.mapM_eq_some_iff hline
  simp only [ofPicture?, Option.bind_eq_bind, Option.bind_eq_some_iff, ofRows?_eq_some_iff,
    exists_eq_right, hlines]
  constructor
  · intro h
    rw [picture_eq_flatMap]
    exact Text.eq_of_lines? h
  · rintro rfl
    exact s.lines?_picture

theorem ofPicture?_picture (s : Screen) : ofPicture? s.picture = some s :=
  ofPicture?_eq_some_iff.2 rfl

theorem count_lines (rows : List (List Bool)) :
    (rows.flatMap fun row => row.map pixelChar ++ ['\n']).count '#' = rows.flatten.count true := by
  have hrow : ∀ row : List Bool, (row.map pixelChar).count '#' = row.count true :=
    fun row => List.count_map_of_injective row pixelChar (by decide) true
  simp [List.count_flatMap, List.count_flatten, Function.comp_def, hrow]

/-- The lit pixels can be counted in the picture. -/
theorem count_picture (s : Screen) : s.picture.count '#' = s.lit := by
  rw [picture, count_lines, flatten_rows, lit]

/-- A picture has 32 lines of 64 characters, each with its line end, and a character in it is a hash
if its pixel is lit and a dot otherwise. Just this text is read as the screen, so another screen has
another picture, and there are as many hashes in it as lit pixels. -/
theorem picture_faithful (s : Screen) :
    (∃ lines : List (List Char), s.picture = lines.flatMap (· ++ ['\n']) ∧ lines.length = 32 ∧
      ∀ y : Fin 32, ∃ letters, lines[y.val]? = some letters ∧ letters.length = 64 ∧
        ∀ x : Fin 64, letters[x.val]? = some (if s.get x y then '#' else '.')) ∧
      (∀ text, ofPicture? text = some s ↔ text = s.picture) ∧
      (∀ t : Screen, s.picture = t.picture ↔ s = t) ∧
      s.picture.count '#' = s.lit := by
  refine ⟨⟨s.lines, s.picture_eq_flatMap, ?_, ?_⟩, fun text => ofPicture?_eq_some_iff, ?_,
    s.count_picture⟩
  · rw [lines, List.length_map, length_rows]
  · intro y
    refine ⟨(s.row y).map pixelChar, ?_, ?_, ?_⟩
    · rw [lines, List.getElem?_map, rows_getElem?]
      rfl
    · rw [List.length_map, length_row]
    · intro x
      rw [List.getElem?_map, row_getElem?]
      rfl
  · intro t
    constructor
    · exact Text.eq_of_read ofPicture?_picture
    · exact congrArg picture

end Screen

end Chip8

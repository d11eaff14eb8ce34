import Comebackhere.Library.Filling
import Comebackhere.Library.Utf8
import Mathlib.Data.Int.Notation

/-!
# QR codes

The user interface draws the QR code of an invoice. It places the function patterns into a matrix of
modules that are empty at first (finders with their separators, timing patterns, alignment patterns
and the format area), and fills what is left with the bits of the text. In the end a mask changes
every module whose coordinates have an even sum, also those of the function patterns.

## Main definitions

* `placePatterns`: the function patterns of a version
* `bitStream`, `placeData`: the bits of a text, and where they go
* `generateQRMatrix`: the matrix that is drawn
* `IsPattern size`: the modules of finders, separators and timing patterns
* `PatternsSurvive data`: they are drawn as they were placed

## Main results

* `isSome_placePatterns`: these modules are placed
* `keeps_placeData`: the data go around what is placed
* `drawn_eq_placed_iff`: the modules that the mask leaves as they were placed
* `patterns_destroyed`: the patterns of no text are drawn as they were placed
-/

namespace QrCode

open Filling

/-! ## Modules -/

/-- The modules of a matrix, each by its row and its column. -/
structure Modules where
  cell : ℕ × ℕ → Option Bool

/-- `matrix[row][col] = val` -/
def Modules.write (matrix : Modules) (cell : ℕ × ℕ) (val : Bool) : Modules :=
  ⟨Function.update matrix.cell cell (some val)⟩

def capacities : List ℕ :=
  [17, 32, 53, 78, 106, 134, 154, 192, 230, 271, 321, 367, 425, 458, 520, 586, 644, 718, 792, 858]

def getVersion (data : String) : ℕ :=
  let len := (Utf8.encode data.toList).length
  match capacities.findIdx? fun capacity => len ≤ capacity with
  | some i => i + 1
  | none => 20

def createMatrix : Modules := ⟨fun _ => none⟩

/-- Modules outside of the matrix are not set. -/
def setModule (size : ℕ) (matrix : Modules) (row col : ℤ) (val : Bool) : Modules :=
  if 0 ≤ row ∧ row < size ∧ 0 ≤ col ∧ col < size then
    matrix.write (row.toNat, col.toNat) val
  else matrix

/-- Set a module that is empty. -/
def setIfNull (matrix : Modules) (row col : ℕ) (val : Bool) : Modules :=
  if matrix.cell (row, col) = none then matrix.write (row, col) val else matrix

/-- The rows and columns of a square of this length, from `-before` on. -/
def square (length before : ℕ) : List (ℤ × ℤ) :=
  (List.range length).flatMap fun r : ℕ =>
    (List.range length).map fun c : ℕ => ((r : ℤ) - before, (c : ℤ) - before)

/-! ## Function patterns -/

/-- The border and the centre of a finder. What is around them is its separator. -/
def isBlackFinder (r c : ℤ) : Bool :=
  (0 ≤ r && r ≤ 6 && (c = 0 || c = 6)) || (0 ≤ c && c ≤ 6 && (r = 0 || r = 6)) ||
    (2 ≤ r && r ≤ 4 && 2 ≤ c && c ≤ 4)

def addFinderPattern (size : ℕ) (matrix : Modules) (row col : ℤ) : Modules :=
  (square 9 1).foldl (fun matrix (r, c) =>
    let rr := row + r
    let cc := col + c
    if rr < 0 ∨ size ≤ rr ∨ cc < 0 ∨ size ≤ cc then matrix
    else setModule size matrix rr cc (isBlackFinder r c)) matrix

def addTimingPatterns (size : ℕ) (matrix : Modules) : Modules :=
  (List.range' 8 (size - 16)).foldl (fun matrix i =>
    let val := i % 2 = 0
    setIfNull (setIfNull matrix 6 i val) i 6 val) matrix

def isBlackAlignment (r c : ℤ) : Bool := r.natAbs = 2 || c.natAbs = 2 || (r = 0 && c = 0)

def addAlignmentPattern (size : ℕ) (matrix : Modules) (row col : ℤ) : Modules :=
  (square 5 2).foldl (fun matrix (r, c) =>
    setModule size matrix (row + r) (col + c) (isBlackAlignment r c)) matrix

def positions : List (List ℕ) :=
  [[], [],
    [6, 18], [6, 22], [6, 26], [6, 30], [6, 34],
    [6, 22, 38], [6, 24, 42], [6, 26, 46], [6, 28, 50], [6, 30, 54],
    [6, 32, 58], [6, 34, 62], [6, 26, 46, 66], [6, 26, 48, 70],
    [6, 26, 50, 74], [6, 30, 54, 78], [6, 30, 56, 82], [6, 30, 58, 86],
    [6, 34, 62, 90]]

def getAlignmentPositions (version : ℕ) : List ℕ :=
  if version = 1 then [] else positions[version]?.getD [6, 18]

/-- No alignment pattern is placed onto a finder. -/
def addAlignmentPatterns (version size : ℕ) (matrix : Modules) : Modules :=
  let alignPositions := getAlignmentPositions version
  alignPositions.foldl (fun matrix r =>
    alignPositions.foldl (fun matrix c =>
      if (r < 9 ∧ c < 9) ∨ (r < 9 ∧ size - 9 < c) ∨ (size - 9 < r ∧ c < 9) then matrix
      else addAlignmentPattern size matrix r c) matrix) matrix

def addFormatArea (size : ℕ) (matrix : Modules) : Modules :=
  let matrix := (List.range 8).foldl (fun matrix i =>
    let matrix := setIfNull matrix 8 i (i = 0)
    let matrix := setIfNull matrix i 8 false
    let matrix := setIfNull matrix 8 (size - 1 - i) false
    setIfNull matrix (size - 1 - i) 8 false) matrix
  setIfNull matrix 8 8 true

def sizeOf (version : ℕ) : ℕ := version * 4 + 17

/-- All that is placed before the data. -/
def placePatterns (version : ℕ) : Modules :=
  let size := sizeOf version
  let matrix := addFinderPattern size createMatrix 0 0
  let matrix := addFinderPattern size matrix 0 (size - 7)
  let matrix := addFinderPattern size matrix (size - 7) 0
  let matrix := addTimingPatterns size matrix
  let matrix := addAlignmentPatterns version size matrix
  -- the dark module
  let matrix := matrix.write (size - 8, 8) true
  addFormatArea size matrix

/-! ## Data -/

/-- The last bits of a number, the highest one first. -/
def bitsOf (count n : ℕ) : List ℕ := (List.range count).reverse.map fun i => n >>> i &&& 1

def padBytes : List ℕ := [0xEC, 0x11]

/-- Bytes in turn, until there are enough bits. -/
def padBits (totalDataBits : ℕ) (bits : List ℕ) (padIdx : ℕ) : List ℕ :=
  if bits.length < totalDataBits then
    padBits totalDataBits (bits ++ bitsOf 8 (padBytes[padIdx % 2]?.getD 0)) (padIdx + 1)
  else bits
termination_by totalDataBits - bits.length
decreasing_by
  simp only [List.length_append, bitsOf, List.length_map, List.length_reverse, List.length_range]
  omega

/-- The mode, the length, the bytes, an end, and padding. -/
def bitStream (version : ℕ) (data : String) : List ℕ :=
  let bytes := Utf8.encode data.toList
  let lenBits := if version ≤ 9 then 8 else 16
  -- the length is taken modulo the numbers that have so many bits
  let bits := [0, 1, 0, 0] ++ bitsOf lenBits bytes.length ++
    bytes.flatMap (fun b => bitsOf 8 b.toNat) ++ [0, 0, 0, 0]
  let bits := bits ++ List.replicate ((8 - bits.length % 8) % 8) 0
  padBits (sizeOf version * sizeOf version) bits 0

/-- The next bit goes into a module that is empty. -/
def placeModule (bits : List ℕ) (row : ℕ) (cc : ℤ) (s : Modules × ℕ) : Modules × ℕ :=
  if cc < 0 then s
  else if s.1.cell (row, cc.toNat) ≠ none then s
  else (s.1.write (row, cc.toNat) (bits[s.2]? = some 1), s.2 + 1)

/-- Two columns of modules, one row after another. -/
def placeRows (bits : List ℕ) (rows : List ℕ) (col : ℤ) (s : Modules × ℕ) : Modules × ℕ :=
  rows.foldl (fun s row => [0, 1].foldl (fun s c => placeModule bits row (col - c) s) s) s

/-- The columns from one on to the left, up and down in turn. The one of the timing pattern is
skipped. -/
def placeColumns (size : ℕ) (bits : List ℕ) (col : ℤ) (goingUp : Bool) (s : Modules × ℕ) :
    Modules × ℕ :=
  if 0 ≤ col then
    let col' := if col = 6 then 5 else col
    let rows := if goingUp then (List.range size).map fun i => size - 1 - i else List.range size
    placeColumns size bits (col' - 2) (!goingUp) (placeRows bits rows col' s)
  else s
termination_by (col + 1).toNat
decreasing_by split <;> omega

def placeData (version : ℕ) (bits : List ℕ) (matrix : Modules) : Modules :=
  (placeColumns (sizeOf version) bits (sizeOf version - 1) true (matrix, 0)).1

/-! ## The matrix -/

/-- A matrix as it is drawn. -/
structure QRMatrix where
  size : ℕ
  isBlack : ℕ × ℕ → Bool

/-- Every module with an even sum of coordinates is changed. -/
def applyMask (result : ℕ × ℕ → Bool) : ℕ × ℕ → Bool := fun (row, col) =>
  if (row + col) % 2 = 0 ∧ result (row, col) = true then false
  else if (row + col) % 2 = 0 ∧ result (row, col) = false then true
  else result (row, col)

def versionOf (data : String) : ℕ := max 2 (getVersion data)

def generateQRMatrix (data : String) : QRMatrix :=
  let version := versionOf data
  let matrix := placeData version (bitStream version data) (placePatterns version)
  ⟨sizeOf version, applyMask fun cell => matrix.cell cell = some true⟩

/-! ## What has to survive -/

/-- The finders with their separators, in three corners, and the timing patterns between them. -/
def IsPattern (size : ℕ) (cell : ℕ × ℕ) : Prop :=
  cell.1 < size ∧ cell.2 < size ∧
    (cell.1 < 8 ∧ cell.2 < 8 ∨ cell.1 < 8 ∧ size - 8 ≤ cell.2 ∨ size - 8 ≤ cell.1 ∧ cell.2 < 8 ∨
      cell.1 = 6 ∧ 8 ≤ cell.2 ∧ cell.2 < size - 8 ∨ cell.2 = 6 ∧ 8 ≤ cell.1 ∧ cell.1 < size - 8)

/-- Finders, separators and timing patterns are drawn as they were placed. -/
def PatternsSurvive (data : String) : Prop :=
  ∀ cell, IsPattern (generateQRMatrix data).size cell →
    some ((generateQRMatrix data).isBlack cell) = (placePatterns (versionOf data)).cell cell

/-! ## Patterns are placed -/

section Placed

variable {size : ℕ} {matrix : Modules} {row col : ℕ} {cell : ℕ × ℕ}

theorem fills_write {val : Bool} : Fills matrix.cell (matrix.write cell val).cell :=
  fills_update _ _ _

theorem fills_setModule {row col : ℤ} {val : Bool} :
    Fills matrix.cell (setModule size matrix row col val).cell := by
  rw [setModule]
  split
  · exact fills_write
  · exact Fills.refl _

theorem keeps_setIfNull {val : Bool} : Keeps matrix.cell (setIfNull matrix row col val).cell := by
  rw [setIfNull]
  split
  · next hnull => exact keeps_update hnull val
  · exact Keeps.refl _

theorem isSome_setIfNull {val : Bool} :
    ((setIfNull matrix row col val).cell (row, col)).isSome := by
  rw [setIfNull]
  split
  · exact isSome_update ..
  · next hset => exact Option.isSome_iff_ne_none.mpr hset

theorem mem_square {length before : ℕ} {r c : ℤ} : (r, c) ∈ square length before ↔
    (-(before : ℤ) ≤ r ∧ r < length - before) ∧ (-(before : ℤ) ≤ c ∧ c < length - before) := by
  simp only [square, List.mem_flatMap, List.mem_map, List.mem_range, Prod.mk.injEq]
  constructor
  · rintro ⟨r', hr, c', hc, rfl, rfl⟩
    omega
  · rintro ⟨hr, hc⟩
    exact ⟨(r + before).toNat, by omega, (c + before).toNat, by omega, by omega, by omega⟩

theorem fills_finderStep (row col : ℤ) (matrix : Modules) (a : ℤ × ℤ) :
    Fills matrix.cell
      (if row + a.1 < 0 ∨ size ≤ row + a.1 ∨ col + a.2 < 0 ∨ size ≤ col + a.2 then matrix
        else setModule size matrix (row + a.1) (col + a.2) (isBlackFinder a.1 a.2)).cell := by
  split
  · exact Fills.refl _
  · exact fills_setModule

theorem fills_addFinderPattern {row col : ℤ} :
    Fills matrix.cell (addFinderPattern size matrix row col).cell :=
  Fills.foldl Modules.cell (fills_finderStep row col) _ _

/-- A finder is placed with its separator, as far as it is within the matrix. -/
theorem isSome_addFinderPattern {row col : ℤ} (hrow : row - 1 ≤ cell.1 ∧ cell.1 ≤ row + 7)
    (hcol : col - 1 ≤ cell.2 ∧ cell.2 ≤ col + 7) (hsize : cell.1 < size ∧ cell.2 < size) :
    ((addFinderPattern size matrix row col).cell cell).isSome := by
  have hmem : ((cell.1 : ℤ) - row, (cell.2 : ℤ) - col) ∈ square 9 1 :=
    mem_square.mpr ⟨by omega, by omega⟩
  refine isSome_foldl Modules.cell (fills_finderStep row col) hmem (fun matrix => ?_) matrix
  have hr : row + (cell.1 - row) = cell.1 := by omega
  have hc : col + (cell.2 - col) = cell.2 := by omega
  simp only [hr, hc]
  rw [if_neg (by omega), setModule, if_pos (by omega), Int.toNat_natCast, Int.toNat_natCast]
  exact isSome_update ..

theorem keeps_timingStep (matrix : Modules) (i : ℕ) :
    Keeps matrix.cell (setIfNull (setIfNull matrix 6 i (i % 2 = 0)) i 6 (i % 2 = 0)).cell :=
  keeps_setIfNull.trans keeps_setIfNull

theorem fills_addTimingPatterns : Fills matrix.cell (addTimingPatterns size matrix).cell :=
  Fills.foldl Modules.cell (fun matrix i => (keeps_timingStep matrix i).fills) _ _

/-- The timing patterns are placed between the finders. -/
theorem isSome_addTimingPatterns {i : ℕ} (hi : 8 ≤ i ∧ i < size - 8) :
    ((addTimingPatterns size matrix).cell (6, i)).isSome ∧
      ((addTimingPatterns size matrix).cell (i, 6)).isSome := by
  have hmem : i ∈ List.range' 8 (size - 16) := List.mem_range'_1.mpr (by omega)
  have hfills : ∀ (matrix : Modules) i, Fills matrix.cell
      (setIfNull (setIfNull matrix 6 i (i % 2 = 0)) i 6 (i % 2 = 0)).cell :=
    fun matrix i => (keeps_timingStep matrix i).fills
  constructor
  · exact isSome_foldl Modules.cell hfills hmem
      (fun matrix => keeps_setIfNull.fills _ isSome_setIfNull) _
  · exact isSome_foldl Modules.cell hfills hmem (fun matrix => isSome_setIfNull) _

theorem fills_addAlignmentPattern {row col : ℤ} :
    Fills matrix.cell (addAlignmentPattern size matrix row col).cell :=
  Fills.foldl Modules.cell (fun _ _ => fills_setModule) _ _

theorem fills_addAlignmentPatterns {version : ℕ} :
    Fills matrix.cell (addAlignmentPatterns version size matrix).cell := by
  refine Fills.foldl Modules.cell (fun _ _ => Fills.foldl Modules.cell (fun _ _ => ?_) _ _) _ _
  split
  · exact Fills.refl _
  · exact fills_addAlignmentPattern

theorem fills_addFormatArea : Fills matrix.cell (addFormatArea size matrix).cell := by
  refine Fills.trans (Fills.foldl Modules.cell (fun _ _ => ?_) _ _) keeps_setIfNull.fills
  exact (((keeps_setIfNull.trans keeps_setIfNull).trans keeps_setIfNull).trans
    keeps_setIfNull).fills

/-- What is placed up to the timing patterns stays placed. -/
theorem fills_placePatterns (version : ℕ) :
    Fills (addTimingPatterns (sizeOf version) (addFinderPattern (sizeOf version)
      (addFinderPattern (sizeOf version) (addFinderPattern (sizeOf version) createMatrix 0 0) 0
        (sizeOf version - 7)) (sizeOf version - 7) 0)).cell (placePatterns version).cell :=
  (fills_addAlignmentPatterns.trans fills_write).trans fills_addFormatArea

/-- **Finders, separators and timing patterns are placed.** -/
theorem isSome_placePatterns {version : ℕ} (h : IsPattern (sizeOf version) cell) :
    ((placePatterns version).cell cell).isSome := by
  obtain ⟨hrow, hcol, h⟩ := h
  have hsize : 17 ≤ sizeOf version := Nat.le_add_left ..
  obtain ⟨r, c⟩ := cell
  apply fills_placePatterns
  -- three finders, one after the other, and then the timing patterns
  rcases h with h | h | h | h | h
  · exact fills_addTimingPatterns _ (fills_addFinderPattern _ (fills_addFinderPattern _
      (isSome_addFinderPattern (by omega) (by omega) ⟨hrow, hcol⟩)))
  · exact fills_addTimingPatterns _ (fills_addFinderPattern _
      (isSome_addFinderPattern (by omega) (by omega) ⟨hrow, hcol⟩))
  · exact fills_addTimingPatterns _
      (isSome_addFinderPattern (by omega) (by omega) ⟨hrow, hcol⟩)
  · obtain ⟨rfl, hi⟩ := h
    exact (isSome_addTimingPatterns hi).1
  · obtain ⟨rfl, hi⟩ := h
    exact (isSome_addTimingPatterns hi).2

end Placed

/-! ## Data go around the patterns -/

section Data

variable {size : ℕ} {bits : List ℕ} {matrix : Modules} {s : Modules × ℕ} {cell : ℕ × ℕ}

theorem keeps_placeModule {row : ℕ} {cc : ℤ} :
    Keeps s.1.cell (placeModule bits row cc s).1.cell := by
  rw [placeModule]
  split
  · exact Keeps.refl _
  · split
    · exact Keeps.refl _
    · next hnull => exact keeps_update (not_not.mp hnull) _

theorem keeps_placeRows {rows : List ℕ} {col : ℤ} :
    Keeps s.1.cell (placeRows bits rows col s).1.cell :=
  let cells (s : Modules × ℕ) := s.1.cell
  Keeps.foldl cells (fun _ _ => Keeps.foldl cells (fun _ _ => keeps_placeModule) _ _) _ _

theorem keeps_placeColumns {col : ℤ} {goingUp : Bool} :
    Keeps s.1.cell (placeColumns size bits col goingUp s).1.cell := by
  induction col, goingUp, s using placeColumns.induct size bits with
  | case1 col goingUp s hcol col' rows ih =>
    rw [placeColumns, if_pos hcol]
    exact keeps_placeRows.trans ih
  | case2 col goingUp s hcol =>
    rw [placeColumns, if_neg hcol]
    exact Keeps.refl _

/-- **The data go around what is placed.** -/
theorem keeps_placeData {version : ℕ} :
    Keeps matrix.cell (placeData version bits matrix).cell :=
  keeps_placeColumns (s := (matrix, 0))

/-- The mask changes the modules with an even sum of coordinates. -/
theorem applyMask_apply (result : ℕ × ℕ → Bool) :
    applyMask result cell = xor (decide ((cell.1 + cell.2) % 2 = 0)) (result cell) := by
  obtain ⟨row, col⟩ := cell
  rw [applyMask]
  by_cases hsum : (row + col) % 2 = 0 <;> cases result (row, col) <;>
    simp [hsum]

end Data

theorem isBlack_generateQRMatrix (data : String) : (generateQRMatrix data).isBlack =
    applyMask fun cell => (placeData (versionOf data) (bitStream (versionOf data) data)
      (placePatterns (versionOf data))).cell cell = some true := by
  rw [generateQRMatrix]

/-! ## The mask changes the patterns -/

/-- **A module of a pattern is drawn as it was placed** if the sum of its coordinates is odd. -/
theorem drawn_eq_placed_iff {data : String} {cell : ℕ × ℕ}
    (h : IsPattern (generateQRMatrix data).size cell) :
    some ((generateQRMatrix data).isBlack cell) = (placePatterns (versionOf data)).cell cell ↔
      (cell.1 + cell.2) % 2 = 1 := by
  have hplaced : ((placePatterns (versionOf data)).cell cell).isSome := isSome_placePatterns h
  have hkept : (placeData (versionOf data) (bitStream (versionOf data) data)
      (placePatterns (versionOf data))).cell cell = (placePatterns (versionOf data)).cell cell :=
    keeps_placeData cell hplaced
  obtain ⟨b, hb⟩ := Option.isSome_iff_exists.mp hplaced
  -- The data pass has kept the module, and the mask changes it or not.
  have hdrawn : (generateQRMatrix data).isBlack cell =
      xor (decide ((cell.1 + cell.2) % 2 = 0)) b := by
    rw [isBlack_generateQRMatrix, applyMask_apply, hkept, hb]
    cases b <;> rfl
  rw [hdrawn, hb, Option.some_inj]
  rcases Nat.mod_two_eq_zero_or_one (cell.1 + cell.2) with hsum | hsum <;> cases b <;> simp [hsum]

/-- The corner of the symbol is one of a finder. -/
theorem isPattern_corner (version : ℕ) : IsPattern (sizeOf version) (0, 0) :=
  ⟨Nat.succ_pos _, Nat.succ_pos _, Or.inl ⟨by decide, by decide⟩⟩

/-- **The patterns of no text survive.** -/
theorem patterns_destroyed (data : String) : ¬PatternsSurvive data := by
  intro h
  have hodd := (drawn_eq_placed_iff (isPattern_corner _)).mp (h (0, 0) (isPattern_corner _))
  cases hodd

theorem not_patternsSurvive : ¬ ∀ data : String, PatternsSurvive data := by
  intro h
  have hodd := (drawn_eq_placed_iff (isPattern_corner _)).mp (h "" (0, 0) (isPattern_corner _))
  cases hodd

end QrCode

import N64Emu.Boot
import N64Emu.FramebufferPaths
import N64Emu.GroupMirror

/-!
# Byte orders of cartridge images

Dumps come with the bytes of each 16-bit or 32-bit unit turned round. The
loader turns them back by the first word, in loops over the pairs or the words
of the image, whatever its length.
-/

set_option autoImplicit false

namespace N64.Cart

open Words Loops GroupMirror

section Loops

/-- `std::swap` of two bytes of the image. -/
def swapAt (i j : ℕ) (data : List U8) : List U8 :=
  (data.set i (data.getD j 0)).set j (data.getD i 0)

theorem length_swapAt (i j : ℕ) (data : List U8) : (swapAt i j data).length = data.length := by
  unfold swapAt
  rw [List.length_set, List.length_set]

theorem getElem?_swapAt {i j : ℕ} {data : List U8} (first : i < data.length)
    (second : j < data.length) (m : ℕ) :
    (swapAt i j data)[m]? = data[if m = j then i else if m = i then j else m]? := by
  unfold swapAt
  rw [List.getElem?_set, List.length_set, List.getElem?_set, List.getD_eq_getElem _ _ first,
    List.getD_eq_getElem _ _ second]
  by_cases atSecond : j = m
  · rw [if_pos atSecond, if_pos second, if_pos atSecond.symm, List.getElem?_eq_getElem first]
  · rw [if_neg atSecond, if_neg (Ne.symm atSecond)]
    by_cases atFirst : i = m
    · rw [if_pos atFirst, if_pos first, if_pos atFirst.symm, List.getElem?_eq_getElem second]
    · rw [if_neg atFirst, if_neg (Ne.symm atFirst)]

def swapPair (p : ℕ) (data : List U8) : List U8 := swapAt (2 * p) (2 * p + 1) data

/-- The pass over a word: its outer bytes, then its inner bytes. -/
def swapWord (p : ℕ) (data : List U8) : List U8 :=
  swapAt (4 * p + 1) (4 * p + 2) (swapAt (4 * p) (4 * p + 3) data)

theorem swapPair_turns (p : ℕ) (data : List U8) (room : 2 * p + 2 ≤ data.length) (i : ℕ) :
    (swapPair p data)[i]? = data[if i / 2 = p then mirror 2 i else i]? := by
  unfold swapPair
  rw [getElem?_swapAt (by omega) (by omega)]
  congr 1
  unfold mirror
  split_ifs <;> omega

theorem swapWord_turns (p : ℕ) (data : List U8) (room : 4 * p + 4 ≤ data.length) (i : ℕ) :
    (swapWord p data)[i]? = data[if i / 4 = p then mirror 4 i else i]? := by
  unfold swapWord
  rw [getElem?_swapAt (by rw [length_swapAt]; omega) (by rw [length_swapAt]; omega),
    getElem?_swapAt (by omega) (by omega)]
  congr 1
  unfold mirror
  split_ifs <;> omega

end Loops

section Forms

theorem swapPairs_mirrored (data : List U8) :
    swapPairs data = mirrored (show 0 < 2 by decide) data := by
  apply eq_mirrored
  fun_induction swapPairs data with
  | case1 a b rest ih =>
    intro i
    rcases i with _ | _ | i
    · rw [place_first (by simp) (by decide)]
      rfl
    · rw [place_first (by simp) (by decide)]
      rfl
    · rw [show (a :: b :: rest).length = rest.length + 2 from rfl, place_add (by decide)]
      exact ih i
  | case2 rest short =>
    intro i
    have few : rest.length < 2 := by
      rcases rest with _ | ⟨a, _ | ⟨b, rest⟩⟩
      · simp
      · simp
      · exact absurd rfl (short a b rest)
    rw [place_short few]

theorem swapWords_mirrored (data : List U8) :
    swapWords data = mirrored (show 0 < 4 by decide) data := by
  apply eq_mirrored
  fun_induction swapWords data with
  | case1 a b c d rest ih =>
    intro i
    rcases i with _ | _ | _ | _ | i
    · rw [place_first (by simp) (by decide)]
      rfl
    · rw [place_first (by simp) (by decide)]
      rfl
    · rw [place_first (by simp) (by decide)]
      rfl
    · rw [place_first (by simp) (by decide)]
      rfl
    · rw [show (a :: b :: c :: d :: rest).length = rest.length + 4 from rfl,
        place_add (by decide)]
      exact ih i
  | case2 rest short =>
    intro i
    have few : rest.length < 4 := by
      rcases rest with _ | ⟨a, _ | ⟨b, _ | ⟨c, _ | ⟨d, rest⟩⟩⟩⟩
      · simp
      · simp
      · simp
      · simp
      · exact absurd rfl (short a b c d rest)
    rw [place_short few]

theorem swapPairs_loop (data : List U8) :
    upTo swapPair (data.length / 2) data = swapPairs data := by
  rw [swapPairs_mirrored]
  exact upTo_groups _ (fun p l => length_swapAt _ _ l) swapPair_turns data

theorem swapWords_loop (data : List U8) :
    upTo swapWord (data.length / 4) data = swapWords data := by
  rw [swapWords_mirrored]
  refine upTo_groups _ (fun p l => ?_) swapWord_turns data
  exact (length_swapAt _ _ _).trans (length_swapAt _ _ l)

def v64Form (image : List U8) : List U8 := mirrored (show 0 < 2 by decide) image

def n64Form (image : List U8) : List U8 := mirrored (show 0 < 4 by decide) image

theorem normalizeCartEndian_cases (data : List U8) :
    normalizeCartEndian data = data ∨ normalizeCartEndian data = v64Form data ∨
      normalizeCartEndian data = n64Form data := by
  simp only [normalizeCartEndian, v64Form, n64Form, ← swapPairs_mirrored, ← swapWords_mirrored]
  split_ifs
  · exact Or.inl rfl
  · exact Or.inl rfl
  · exact Or.inr (Or.inl rfl)
  · exact Or.inr (Or.inr rfl)
  · exact Or.inl rfl

end Forms

section Magic

theorem beU32_start (a b c d : U8) (rest : List U8) :
    beU32 (a :: b :: c :: d :: rest) 0 = join32 a b c d := rfl

theorem magic_bytes {data : List U8} {magic : U32} (nonzero : magic ≠ 0)
    (first : beU32 data 0 = magic) : ∃ rest, data =
      byteAt magic 24 :: byteAt magic 16 :: byteAt magic 8 :: byteAt magic 0 :: rest := by
  match data with
  | [] => exact absurd first.symm nonzero
  | [_] => exact absurd first.symm nonzero
  | [_, _] => exact absurd first.symm nonzero
  | [_, _, _] => exact absurd first.symm nonzero
  | a :: b :: c :: d :: rest =>
    have word : join32 a b c d = magic := (beU32_start a b c d rest).symm.trans first
    obtain ⟨ha, hb, hc, hd⟩ := Vi.byteAt_join32 a b c d
    rw [word] at ha hb hc hd
    exact ⟨rest, by rw [ha, hb, hc, hd]⟩

theorem magic_long {data : List U8} {magic : U32} (nonzero : magic ≠ 0)
    (first : beU32 data 0 = magic) : ¬ data.length < 4 := by
  obtain ⟨rest, rfl⟩ := magic_bytes nonzero first
  simp

variable {data : List U8}

theorem normalize_native (first : beU32 data 0 = 0x80371240) :
    normalizeCartEndian data = data := by
  simp only [normalizeCartEndian, first, if_true, ite_self]

theorem normalize_v64 (first : beU32 data 0 = 0x37804012) :
    normalizeCartEndian data = v64Form data ∧ beU32 (v64Form data) 0 = 0x80371240 := by
  have long := magic_long (by decide) first
  unfold v64Form
  rw [← swapPairs_mirrored]
  constructor
  · unfold normalizeCartEndian
    dsimp only
    rw [first, if_neg long, if_neg (by decide), if_pos rfl]
  · obtain ⟨rest, rfl⟩ := magic_bytes (by decide) first
    rw [swapPairs, swapPairs, beU32_start]
    decide

theorem normalize_n64 (first : beU32 data 0 = 0x40123780) :
    normalizeCartEndian data = n64Form data ∧ beU32 (n64Form data) 0 = 0x80371240 := by
  have long := magic_long (by decide) first
  unfold n64Form
  rw [← swapWords_mirrored]
  constructor
  · unfold normalizeCartEndian
    dsimp only
    rw [first, if_neg long, if_neg (by decide), if_neg (by decide), if_pos rfl]
  · obtain ⟨rest, rfl⟩ := magic_bytes (by decide) first
    rw [swapWords, beU32_start]
    decide

theorem dumped_magic (first : beU32 data 0 = 0x80371240) :
    beU32 (v64Form data) 0 = 0x37804012 ∧ beU32 (n64Form data) 0 = 0x40123780 := by
  obtain ⟨rest, rfl⟩ := magic_bytes (by decide) first
  unfold v64Form n64Form
  rw [← swapPairs_mirrored, ← swapWords_mirrored, swapPairs, swapPairs, swapWords, beU32_start,
    beU32_start]
  exact ⟨by decide, by decide⟩

theorem normalize_dumped (first : beU32 data 0 = 0x80371240) :
    normalizeCartEndian (v64Form data) = data ∧ normalizeCartEndian (n64Form data) = data := by
  obtain ⟨swapped, reversed⟩ := dumped_magic first
  rw [(normalize_v64 swapped).1, (normalize_n64 reversed).1]
  exact ⟨mirrored_mirrored _ _, mirrored_mirrored _ _⟩

theorem normalize_twice (data : List U8) :
    normalizeCartEndian (normalizeCartEndian data) = normalizeCartEndian data := by
  by_cases swapped : beU32 data 0 = 0x37804012
  · obtain ⟨turned, magic⟩ := normalize_v64 swapped
    rw [turned, normalize_native magic]
  · by_cases reversed : beU32 data 0 = 0x40123780
    · obtain ⟨turned, magic⟩ := normalize_n64 reversed
      rw [turned, normalize_native magic]
    · have same : normalizeCartEndian data = data := by
        simp only [normalizeCartEndian, if_neg swapped, if_neg reversed, ite_self]
      rw [same, same]

theorem normalize_places (data : List U8) : ∃ σ : Equiv.Perm ℕ, (∀ i, σ i / 4 = i / 4) ∧
    ∀ i, (normalizeCartEndian data)[i]? = data[σ i]? := by
  rcases normalizeCartEndian_cases data with same | swapped | reversed
  · exact ⟨Equiv.refl ℕ, fun i => rfl, fun i => by rw [same]; rfl⟩
  · refine ⟨places (show 0 < 2 by decide) data.length, fun i => ?_, fun i => ?_⟩
    · have pair : place 2 data.length i / 2 = i / 2 := place_div (by decide)
      show place 2 data.length i / 4 = i / 4
      omega
    · rw [swapped]
      exact getElem?_mirrored _ data i
  · refine ⟨places (show 0 < 4 by decide) data.length, fun i => ?_, fun i => ?_⟩
    · exact place_div (by decide)
    · rw [reversed]
      exact getElem?_mirrored _ data i

/-- The three byte orders load alike, and normalisation is a permutation inside
words that is done once. -/
theorem cart_byte_orders (s : Sys) :
    (∀ image : List U8, image.length % 4 = 0 → beU32 image 0 = 0x80371240 →
      Bus.loadCartridge s (v64Form image) = Bus.loadCartridge s image ∧
      Bus.loadCartridge s (n64Form image) = Bus.loadCartridge s image ∧
      Bus.loadCartridge s image =
        some { s with bus.cartSize := image.length, bus.cart := fun i => image.getD i 0 }) ∧
    ∀ data : List U8, (normalizeCartEndian data).length = data.length ∧
      (∃ σ : Equiv.Perm ℕ, (∀ i, σ i / 4 = i / 4) ∧
        ∀ i, (normalizeCartEndian data)[i]? = data[σ i]?) ∧
      normalizeCartEndian (normalizeCartEndian data) = normalizeCartEndian data := by
  constructor
  · intro image _ first
    obtain ⟨swapped, reversed⟩ := normalize_dumped first
    have native := normalize_native first
    have nonempty {data : List U8} (same : data.length = image.length) :
        data.isEmpty = false := by
      obtain ⟨rest, here⟩ := magic_bytes (by decide) first
      rw [here, List.length_cons] at same
      rw [List.isEmpty_eq_false_iff]
      rintro rfl
      exact absurd same (Nat.succ_ne_zero _).symm
    have load {data : List U8} (same : data.length = image.length)
        (turned : normalizeCartEndian data = image) : Bus.loadCartridge s data =
          some { s with bus.cartSize := image.length, bus.cart := fun i => image.getD i 0 } := by
      simp only [Bus.loadCartridge, nonempty same, turned]
      rfl
    have whole := load rfl native
    rw [whole]
    exact ⟨load (length_mirrored _ image) swapped, load (length_mirrored _ image) reversed, rfl⟩
  · intro data
    exact ⟨length_normalizeCartEndian data, normalize_places data, normalize_twice data⟩

/-- Two words of a cartridge, as each of the dumpers writes them. -/
theorem cart_byte_orders_two_words :
    let image : List U8 := [0x80, 0x37, 0x12, 0x40, 0x01, 0x02, 0x03, 0x04]
    let loaded : Sys := { bus := { cartSize := 8, cart := fun i => image.getD i 0 } }
    Bus.loadCartridge {} [0x37, 0x80, 0x40, 0x12, 0x02, 0x01, 0x04, 0x03] = some loaded ∧
      Bus.loadCartridge {} [0x40, 0x12, 0x37, 0x80, 0x04, 0x03, 0x02, 0x01] = some loaded := by
  intro image loaded
  have loads := (cart_byte_orders {}).1 image (by decide) (by decide)
  rw [show v64Form image = [0x37, 0x80, 0x40, 0x12, 0x02, 0x01, 0x04, 0x03] by decide,
    show n64Form image = [0x40, 0x12, 0x37, 0x80, 0x04, 0x03, 0x02, 0x01] by decide] at loads
  exact ⟨loads.1.trans loads.2.2, loads.2.1.trans loads.2.2⟩

end Magic

end N64.Cart

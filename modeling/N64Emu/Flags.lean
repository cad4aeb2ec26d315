import Mathlib.Tactic.Common
import Mathlib.Data.Nat.Notation

/-!
# Words of flags

A word in which each of some names has a mask of its own. Setting and clearing
a mask is an update of the set of names that are on. Nothing here mentions a
particular program.
-/

set_option autoImplicit false

namespace Flags

variable {α : Type*} {w : ℕ} (mask : α → BitVec w)

def setIf (v : BitVec w) (a : α) (on : Bool) : BitVec w := if on then v ||| mask a else v

/-- The masks of the names that are on. -/
def word (names : List α) (on : α → Bool) : BitVec w :=
  names.foldl (fun v a => setIf mask v a (on a)) 0

def Apart : Prop := ∀ a b, a ≠ b → mask a &&& mask b = 0

variable {mask} {names : List α} {on : α → Bool}

theorem getLsbD_none (i : ℕ) : (0 : BitVec w).getLsbD i = false := BitVec.getLsbD_zero

theorem getLsbD_setIf (v : BitVec w) (a : α) (b : Bool) (i : ℕ) :
    (setIf mask v a b).getLsbD i = (v.getLsbD i || (b && (mask a).getLsbD i)) := by
  unfold setIf
  cases b <;> simp

theorem getLsbD_word (i : ℕ) :
    (word mask names on).getLsbD i = names.any fun a => on a && (mask a).getLsbD i := by
  have folded : ∀ v : BitVec w, (names.foldl (fun v a => setIf mask v a (on a)) v).getLsbD i =
      (v.getLsbD i || names.any fun a => on a && (mask a).getLsbD i) := by
    induction names with
    | nil => simp
    | cons a names ih =>
      intro v
      rw [List.foldl_cons, ih, getLsbD_setIf, List.any_cons, Bool.or_assoc]
  rw [word, folded, getLsbD_none, Bool.false_or]

theorem word_congr {on' : α → Bool} (same : ∀ a ∈ names, on a = on' a) :
    word mask names on = word mask names on' := by
  refine BitVec.eq_of_getLsbD_eq fun i _ => ?_
  rw [getLsbD_word, getLsbD_word, Bool.eq_iff_iff, List.any_eq_true, List.any_eq_true]
  refine exists_congr fun a => and_congr_right fun named => ?_
  rw [same a named]

theorem word_set [DecidableEq α] {a : α} (named : a ∈ names) :
    word mask names on ||| mask a = word mask names (Function.update on a true) := by
  refine BitVec.eq_of_getLsbD_eq fun i _ => ?_
  rw [BitVec.getLsbD_or, getLsbD_word, getLsbD_word, Bool.eq_iff_iff, Bool.or_eq_true,
    List.any_eq_true, List.any_eq_true]
  constructor
  · rintro (⟨b, among, lit⟩ | lit)
    · refine ⟨b, among, ?_⟩
      rw [Function.update_apply]
      split
      · exact (Bool.and_eq_true_iff.mp lit).2
      · exact lit
    · exact ⟨a, named, by rw [Function.update_self]; exact lit⟩
  · rintro ⟨b, among, lit⟩
    rw [Function.update_apply] at lit
    split at lit
    · rename_i same
      exact Or.inr (same ▸ lit)
    · exact Or.inl ⟨b, among, lit⟩

theorem word_and_other {v : BitVec w} (other : ∀ a, mask a &&& v = 0) :
    word mask names on &&& v = 0 := by
  refine BitVec.eq_of_getLsbD_eq fun i _ => ?_
  rw [BitVec.getLsbD_and, getLsbD_word, getLsbD_none, Bool.eq_false_iff]
  intro both
  obtain ⟨found, here⟩ := Bool.and_eq_true_iff.mp both
  obtain ⟨a, -, lit⟩ := List.any_eq_true.mp found
  have clear := congrArg (BitVec.getLsbD · i) (other a)
  simp [(Bool.and_eq_true_iff.mp lit).2, here] at clear

variable (apart : Apart mask)
include apart

theorem getLsbD_apart {a b : α} {i : ℕ} (first : (mask a).getLsbD i = true)
    (second : (mask b).getLsbD i = true) : a = b := by
  by_contra other
  have clear := congrArg (BitVec.getLsbD · i) (apart a b other)
  simp [first, second] at clear

theorem word_clear [DecidableEq α] (a : α) :
    word mask names on &&& ~~~mask a = word mask names (Function.update on a false) := by
  refine BitVec.eq_of_getLsbD_eq fun i small => ?_
  rw [BitVec.getLsbD_and, BitVec.getLsbD_not, getLsbD_word, getLsbD_word, Bool.eq_iff_iff,
    Bool.and_eq_true, List.any_eq_true, List.any_eq_true]
  constructor
  · rintro ⟨⟨b, among, lit⟩, dark⟩
    refine ⟨b, among, ?_⟩
    have other : b ≠ a := by
      rintro rfl
      rw [(Bool.and_eq_true_iff.mp lit).2, decide_eq_true small] at dark
      cases dark
    rw [Function.update_of_ne other]
    exact lit
  · rintro ⟨b, among, lit⟩
    rw [Function.update_apply] at lit
    split at lit
    · cases lit
    · rename_i other
      refine ⟨⟨b, among, lit⟩, ?_⟩
      have dark : (mask a).getLsbD i ≠ true := fun both =>
        other (getLsbD_apart apart (Bool.and_eq_true_iff.mp lit).2 both)
      rw [Bool.eq_false_iff.mpr dark, decide_eq_true small]
      rfl

theorem word_and_iff (some_ : ∀ a, mask a ≠ 0) (a : α) :
    word mask names on &&& mask a ≠ 0 ↔ a ∈ names ∧ on a = true := by
  constructor
  · intro lit
    by_contra off
    refine lit (BitVec.eq_of_getLsbD_eq fun i _ => ?_)
    rw [BitVec.getLsbD_and, getLsbD_word, getLsbD_none, Bool.eq_false_iff]
    intro both
    obtain ⟨found, here⟩ := Bool.and_eq_true_iff.mp both
    obtain ⟨b, among, lit⟩ := List.any_eq_true.mp found
    obtain ⟨isOn, there⟩ := Bool.and_eq_true_iff.mp lit
    have same := getLsbD_apart apart there here
    exact off (same ▸ ⟨among, isOn⟩)
  · rintro ⟨among, isOn⟩ dark
    refine some_ a (BitVec.eq_of_getLsbD_eq fun i _ => ?_)
    rw [getLsbD_none, Bool.eq_false_iff]
    intro here
    have clear := congrArg (BitVec.getLsbD · i) dark
    have found : (names.any fun b => on b && (mask b).getLsbD i) = true :=
      List.any_eq_true.mpr ⟨a, among, by rw [isOn, here]; rfl⟩
    simp [getLsbD_word, found, here] at clear

end Flags

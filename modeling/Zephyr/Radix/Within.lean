import Zephyr.Radix.Traversal

/-! One tree of tables read within another: the leaves of the first are the same leaves
of the second, and where the first has a further table so has the second. -/

namespace Zephyr.Radix

universe u v

variable {Frame : Type v} {Word : Type u} {n : Nat} [Zero Word] [TableEntry Word Frame]

/-- Off the paths set aside, every leaf of the first tree is the second's; and the second
goes on wherever the first does, with an entry alike. -/
structure Within (alike : Word → Word → Prop) (aside : List (Fin n) → Prop) (levels : Nat)
    (memory : Memory Frame n Word) (source : Frame) (changed : Memory Frame n Word) (target : Frame) : Prop where
  leaves : ∀ path index, path.length < levels → ¬ aside path → entryAt memory source path index ≠ 0 →
    path.length + 1 = levels ∨ next (entryAt memory source path index) = none →
    entryAt changed target path index = entryAt memory source path index
  tables : ∀ path index child, path.length + 1 < levels → next (entryAt memory source path index) = some child →
    ∃ twin, next (entryAt changed target path index) = some twin ∧
      alike (entryAt memory source path index) (entryAt changed target path index)

namespace Within

variable {alike : Word → Word → Prop} {aside : List (Fin n) → Prop} {levels : Nat}
variable {memory changed last : Memory Frame n Word} {source target final : Frame}
variable {path : List (Fin n)} {index : Fin n} {word : Word}

theorem trans (chain : ∀ {first second third}, alike first second → alike second third → alike first third)
    (one : Within alike aside levels memory source changed target)
    (two : Within alike aside levels changed target last final) :
    Within alike aside levels memory source last final where
  leaves path index short off used leaf := by
    have same := one.leaves path index short off used leaf
    have further := two.leaves path index short off (by rwa [same]) (by rwa [same])
    exact further.trans same
  tables path index child upper points := by
    obtain ⟨twin, leads, first⟩ := one.tables path index child upper points
    obtain ⟨other, onward, second⟩ := two.tables path index twin upper leads
    exact ⟨other, onward, chain first second⟩

/-- The frame rule: a tree whose tables are left alone. -/
theorem of_agree (self : ∀ word, alike word word)
    (agree : ∀ table ∈ tableSet levels memory source, changed table = memory table) :
    Within alike aside levels memory source changed source where
  leaves path index short _ _ _ := entryAt_frame agree short
  tables path index child upper points := by
    have same : entryAt changed source path index = entryAt memory source path index :=
      entryAt_frame agree (by omega)
    exact ⟨child, same ▸ points, same ▸ self _⟩

theorem of_mirrors {same : Word → Word → Prop} (implies : ∀ {word copy}, same word copy → alike word copy)
    (mirrors : Mirrors same memory changed levels source target) :
    Within alike aside levels memory source changed target where
  leaves path index short _ _ leaf := (mirrors.entryAt short index).1 leaf
  tables path index child upper points := by
    obtain ⟨twin, leads, close, _⟩ := (mirrors.entryAt (by omega) index).2 child (by omega) points
    exact ⟨twin, leads, implies close⟩

theorem of_upper {child : Frame} (self : ∀ word, alike word word)
    (rewrites : Rewrites levels memory changed source path index word) (upper : path.length + 1 < levels)
    (leads : next word = some child) (grows : alike (entryAt memory source path index) word)
    (vacant : entryAt memory source path index = 0 ∨ ∃ old, next (entryAt memory source path index) = some old) :
    Within alike aside levels memory source changed source where
  leaves other position short _ used leaf := by
    rw [rewrites position short, if_neg]
    rintro ⟨rfl, rfl⟩
    rcases vacant with unused | ⟨old, points⟩
    · exact used unused
    · rcases leaf with bottom | empty
      · omega
      · cases points.symm.trans empty
  tables other position old above points := by
    rw [rewrites position (by omega)]
    split
    · rename_i here
      rw [here.1, here.2]
      exact ⟨child, leads, grows⟩
    · exact ⟨old, points, self _⟩

theorem of_lower (self : ∀ word, alike word word)
    (rewrites : Rewrites levels memory changed source path index word) (lower : path.length + 1 = levels)
    (vacant : entryAt memory source path index = 0 ∨ aside path) :
    Within alike aside levels memory source changed source where
  leaves other position short off used _ := by
    rw [rewrites position short, if_neg]
    rintro ⟨rfl, rfl⟩
    exact vacant.elim used off
  tables other position old above points := by
    rw [rewrites position (by omega), if_neg]
    · exact ⟨old, points, self _⟩
    · rintro ⟨rfl, _⟩
      omega

end Within

end Zephyr.Radix

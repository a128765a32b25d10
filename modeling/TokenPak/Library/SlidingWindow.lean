import Mathlib.Algebra.Order.Group.Defs
import Mathlib.Data.List.Pairwise

/-! Times of a sliding window. A list that forgets the times behind the window as it goes counts the
same times as one that keeps them all. -/

namespace TokenPak.Library.SlidingWindow
variable {Time : Type} [AddCommGroup Time] [LinearOrder Time]

def within (width now : Time) (times : List Time) : List Time := times.filter (now - width ≤ ·)

/-- The list has every time of the history that is in a window from the last time on. -/
structure Pruned (width last : Time) (times history : List Time) : Prop where
  sorted : times.Pairwise (· ≤ ·)
  past : ∀ time ∈ times, time ≤ last
  same : ∀ now, last ≤ now → within width now times = within width now history

variable {width last now : Time} {times history : List Time}

omit [AddCommGroup Time] in
theorem dropWhile_lt (sorted : times.Pairwise (· ≤ ·)) (cutoff : Time) :
    times.dropWhile (· < cutoff) = times.filter (cutoff ≤ ·) := by
  induction sorted with
  | nil => rfl
  | @cons first rest before _ ih =>
    by_cases behind : first < cutoff
    · rw [List.dropWhile_cons_of_pos (by simpa using behind), ih,
        List.filter_cons_of_neg (by simpa using behind)]
    · have reached : cutoff ≤ first := not_lt.mp behind
      rw [List.dropWhile_cons_of_neg (by simpa using behind),
        List.filter_cons_of_pos (by simpa using reached)]
      congr 1
      symm
      apply List.filter_eq_self.mpr
      intro time member
      exact decide_eq_true (reached.trans (before time member))

theorem Pruned.nil : Pruned width last [] [] := ⟨.nil, by simp, fun _ _ => rfl⟩

theorem Pruned.later (pruned : Pruned width last times history) (order : last ≤ now) :
    Pruned width now times history where
  sorted := pruned.sorted
  past time member := (pruned.past time member).trans order
  same later after := pruned.same later (order.trans after)

theorem Pruned.append (pruned : Pruned width now times history) : Pruned width now (times ++ [now])
    (history ++ [now]) where
  sorted := List.pairwise_append.mpr ⟨pruned.sorted, List.pairwise_singleton _ _, by simpa using pruned.past⟩
  past := by
    intro time member
    rcases List.mem_append.mp member with old | new
    · exact pruned.past time old
    · exact (List.mem_singleton.mp new).le
  same later after := by
    have old := pruned.same later after
    rw [within, within] at old
    rw [within, within, List.filter_append, List.filter_append, old]

theorem Pruned.within_eq (pruned : Pruned width last times history) (order : last ≤ now) :
    times.dropWhile (· < now - width) = within width now history := by
  rw [dropWhile_lt pruned.sorted, ← pruned.same now order, within]

theorem Pruned.prune [IsOrderedAddMonoid Time] (pruned : Pruned width now times history) :
    Pruned width now (times.dropWhile (· < now - width)) history where
  sorted := pruned.sorted.sublist (List.dropWhile_sublist _)
  past time member := pruned.past time ((List.dropWhile_sublist _).subset member)
  same later after := by
    rw [dropWhile_lt pruned.sorted, ← pruned.same later after, within, within, List.filter_filter]
    apply List.filter_congr
    intro time _
    have reached (inside : later - width ≤ time) : now - width ≤ time :=
      (sub_le_sub_right after width).trans inside
    by_cases inside : later - width ≤ time
    · simp [inside, reached inside]
    · simp [inside]

end TokenPak.Library.SlidingWindow

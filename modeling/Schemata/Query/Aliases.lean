/-!
# Aliases of table instances

Every table instance of a query gets an alias of its own: a fixed start and a number that goes up
by one each time.

## Main definitions

* `AliasSupply`: the start and the number of aliases handed out
* `AliasSupply.fresh`, `AliasSupply.advance`: the next alias, and the supply without it
* `AliasSupply.take`: several aliases in a row

## Main results

* `nodup_take`: no alias is handed out twice
-/

namespace Schemata

/-- A supply of aliases. It counts without bound, where a counter of 64 bits begins anew after 2^64
aliases; what is said of it is said of fewer than that. -/
structure AliasSupply where
  /-- The start of every alias. -/
  start : String := "X"
  /-- How many aliases have been handed out: fewer than 2^64. -/
  used : Nat := 0
  deriving DecidableEq

namespace AliasSupply

/-- The next alias: the start and its number, counted from one. -/
def fresh (supply : AliasSupply) : String := supply.start ++ Nat.repr (supply.used + 1)

/-- The supply after the next alias has been handed out. -/
def advance (supply : AliasSupply) : AliasSupply := { supply with used := supply.used + 1 }

/-- The next aliases, as many as asked for. -/
def take (supply : AliasSupply) : Nat → List String
  | 0 => []
  | count + 1 => supply.fresh :: supply.advance.take count

/-- Supplies of one start that give the same alias have handed out equally many. -/
theorem used_eq_of_fresh_eq {a b : AliasSupply} (hstart : a.start = b.start)
    (h : a.fresh = b.fresh) : a.used = b.used := by
  have hlist := congrArg String.toList h
  simp only [fresh, hstart, String.toList_append, List.append_cancel_left_eq] at hlist
  -- The digits determine the number.
  have hnumber := congrArg (fun digits => Nat.ofDigitChars 10 digits 0) hlist
  simpa [Nat.repr] using hnumber

theorem eq_fresh_of_mem_take {supply : AliasSupply} {count : Nat} {name : String}
    (h : name ∈ supply.take count) :
    ∃ used, supply.used ≤ used ∧ name = { supply with used := used }.fresh := by
  induction count generalizing supply with
  | zero => simp [take] at h
  | succ count ih =>
    rcases List.mem_cons.1 h with rfl | h
    · exact ⟨supply.used, Nat.le_refl _, rfl⟩
    · obtain ⟨used, hused, eq⟩ := ih h
      exact ⟨used, Nat.le_of_succ_le hused, eq⟩

/-- No alias is handed out twice. -/
theorem nodup_take (supply : AliasSupply) (count : Nat) : (supply.take count).Nodup := by
  induction count generalizing supply with
  | zero => simp [take]
  | succ count ih =>
    refine List.nodup_cons.2 ⟨fun h => ?_, ih _⟩
    obtain ⟨used, hused, eq⟩ := eq_fresh_of_mem_take h
    have := used_eq_of_fresh_eq (a := supply) (b := { supply with used := used }) rfl eq
    simp only [advance] at hused this
    omega

end AliasSupply

end Schemata

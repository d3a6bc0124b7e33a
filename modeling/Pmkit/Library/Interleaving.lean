import Mathlib.Data.List.Nodup
import Mathlib.Data.List.Perm.Basic

/-!
# Interleavings of scripts

Several parties each follow a script.  What an observer sees is a list of
items, each owned by one party, in which every party's items are its script in
order.
-/

universe u v

namespace Interleaving

variable {A : Type u} {K : Type v} [DecidableEq K] (owner : A → K)

def ownedBy (party : K) (items : List A) : List A :=
  items.filter fun item => owner item = party

structure Interleaves (scripts : List (K × List A)) (items : List A) :
    Prop where
  owned : ∀ item ∈ items, owner item ∈ scripts.map Prod.fst
  follows : ∀ script ∈ scripts, ownedBy owner script.1 items = script.2

/-- Sorting the items by party loses and duplicates none. -/
theorem perm_flatMap_ownedBy
    {parties : List K} (nodup : parties.Nodup) {items : List A}
    (owned : ∀ item ∈ items, owner item ∈ parties) :
    items.Perm (parties.flatMap fun party => ownedBy owner party items) := by
  induction parties generalizing items with
  | nil =>
      cases items with
      | nil => exact List.Perm.refl _
      | cons item rest => exact absurd (owned item List.mem_cons_self) (by simp)
  | cons party rest ih =>
      rw [List.nodup_cons] at nodup
      have others : ∀ item ∈ items.filter (fun item => owner item ≠ party),
          owner item ∈ rest := by
        intro item mem
        rw [List.mem_filter] at mem
        have ne : owner item ≠ party := by simpa using mem.2
        exact (List.mem_cons.mp (owned item mem.1)).resolve_left ne
      have sorted := ih nodup.2 others
      have same : (rest.flatMap fun other => ownedBy owner other
          (items.filter fun item => owner item ≠ party)) =
          rest.flatMap fun other => ownedBy owner other items := by
        apply List.flatMap_congr
        intro other mem
        unfold ownedBy
        rw [List.filter_filter]
        apply List.filter_congr
        intro item _
        have ne : other ≠ party := by
          rintro rfl
          exact nodup.1 mem
        by_cases own : owner item = other
        · simp [own, ne]
        · simp [own]
      rw [same] at sorted
      rw [List.flatMap_cons]
      have halves : (ownedBy owner party items ++
          items.filter fun item => owner item ≠ party).Perm items := by
        have split := List.filter_append_perm
          (fun item => decide (owner item = party)) items
        simpa [ownedBy] using split
      exact halves.symm.trans (sorted.append_left _)

variable {owner} {scripts : List (K × List A)}

theorem Interleaves.perm
    {items : List A} (interleaves : Interleaves owner scripts items)
    (nodup : (scripts.map Prod.fst).Nodup) :
    items.Perm (scripts.flatMap Prod.snd) := by
  have sorted := perm_flatMap_ownedBy owner nodup interleaves.owned
  have same : ((scripts.map Prod.fst).flatMap fun party =>
      ownedBy owner party items) = scripts.flatMap Prod.snd := by
    rw [List.flatMap_map]
    exact List.flatMap_congr fun script mem =>
      interleaves.follows script mem
  rw [same] at sorted
  exact sorted

theorem Interleaves.next {done rest : List A} {item : A}
    (interleaves : Interleaves owner scripts (done ++ item :: rest)) :
    ∃ script ∈ scripts, script.1 = owner item ∧
      script.2 = ownedBy owner (owner item) done ++
        item :: ownedBy owner (owner item) rest := by
  obtain ⟨script, mem, same⟩ :=
    List.mem_map.mp (interleaves.owned item (by simp))
  refine ⟨script, mem, same, ?_⟩
  have follows := interleaves.follows script mem
  rw [same] at follows
  rw [← follows]
  simp [ownedBy]

end Interleaving

import Mathlib.Data.List.Nodup
import LightLink.Message.Output
import LightLink.Proofs.Config.Validation

/-!
# Addressing the outputs of a description

A message names an output by its number, and the number `allOutputs` stands for all outputs of the
module. The outputs of a description have different numbers; one of them has the number that stands
for all exactly if there are as many outputs as a module holds.

* `ModuleDescription.Describes.indices`: the numbers of the outputs;
* `ModuleDescription.validate_addressable`: they are different, and when each is an output's own;
* `ModuleDescription.not_validate_addressable`: the last of 255 outputs cannot be addressed.
-/

namespace LightLink

namespace ModuleDescription

variable {d : ModuleDescription} {c : ModuleConfig}

/-- What a description is turned into is the configuration that it stands for. -/
theorem describes_of_validate (accepted : d.validate = .ok c) : d.Describes c := by
  by_cases valid : d.Valid
  · obtain ⟨c', accepted', described⟩ := valid.validate
    obtain rfl := Except.ok.inj (accepted'.symm.trans accepted)
    exact described
  · obtain ⟨e, fault⟩ := exists_firstFault valid
    cases accepted.symm.trans (validate_of_firstFault fault)

/-- The outputs are numbered one after the other. -/
theorem Describes.indices (described : d.Describes c) :
    c.outputs.map (·.index.toNat) = List.range d.outputs.length := by
  apply List.ext_getElem
  · rw [List.length_map, List.length_range, described.length]
  · intro i _ inside
    rw [List.length_range] at inside
    obtain ⟨x, at_i, index, -⟩ := described.outputs i _ (List.getElem?_eq_getElem inside)
    obtain ⟨_, there⟩ := List.getElem?_eq_some_iff.mp at_i
    rw [List.getElem_map, List.getElem_range, there, index]

/-- An output has a number exactly if there are more outputs than this. -/
theorem Describes.exists_index_iff (described : d.Describes c) (i : UInt8) :
    (∃ o ∈ c.outputs, o.index = i) ↔ i.toNat < d.outputs.length := by
  rw [← List.mem_range, ← described.indices, List.mem_map]
  simp only [UInt8.toNat_inj]

/-- The outputs of a description have different numbers. None of these is the one that means every
output exactly if there are at most 254 outputs. -/
theorem validate_addressable (accepted : d.validate = .ok c) :
    (c.outputs.map (·.index)).Nodup ∧
      ((∀ o ∈ c.outputs, o.index ≠ allOutputs) ↔ d.outputs.length ≤ 254) := by
  have described := describes_of_validate accepted
  constructor
  · apply List.Nodup.of_map UInt8.toNat
    rw [List.map_map]
    show (c.outputs.map (·.index.toNat)).Nodup
    rw [described.indices]
    exact List.nodup_range
  · have taken := described.exists_index_iff allOutputs
    rw [show allOutputs.toNat = 254 from rfl] at taken
    rw [← Nat.not_lt, ← taken]
    simp only [not_exists, not_and, ne_eq]

/-- Two outputs of one kind, which are addressed each by its own number. -/
theorem validate_addressable_pair :
    let d : ModuleDescription := ⟨⟨2, 3, 128, 1, 9600, 0⟩, [.xbee 0 1, .xbee 0 1]⟩
    let c : ModuleConfig :=
      ⟨⟨configMagic, 2, 3, ⟨8⟩, 2, 0, 1, 128⟩, [⟨0, .xbee 0 1⟩, ⟨1, .xbee 0 1⟩], rfl⟩
    d.validate = .ok c ∧ (c.outputs.map (·.index)).Nodup ∧
      ∀ o ∈ c.outputs, o.index ≠ allOutputs := by
  intro d c
  have accepted : d.validate = .ok c := by cbv
  obtain ⟨different, own⟩ := validate_addressable accepted
  exact ⟨accepted, different, own.mpr (by decide)⟩

/-- The last of 255 outputs has the number that means every output, so that it cannot be addressed
on its own. -/
theorem not_validate_addressable : ¬ ∀ (d : ModuleDescription) (c : ModuleConfig),
    d.validate = .ok c → (c.outputs.map (·.index)).Nodup ∧
      ∀ o ∈ c.outputs, o.index ≠ allOutputs := by
  intro all
  let d : ModuleDescription := ⟨⟨2, 3, 128, 1, 9600, 0⟩, List.replicate 255 (.program [])⟩
  have valid : d.Valid := by
    refine ⟨⟨by decide, ⟨8, rfl⟩, by decide⟩, Nat.le_of_eq List.length_replicate, fun o mem => ?_⟩
    rw [List.eq_of_mem_replicate mem]
    exact Nat.zero_le _
  obtain ⟨c, accepted, described⟩ := valid.validate
  have last : allOutputs.toNat < d.outputs.length := by
    rw [List.length_replicate]
    decide
  obtain ⟨o, mem, index⟩ := (described.exists_index_iff allOutputs).mpr last
  exact (all d c accepted).2 o mem index

end ModuleDescription

end LightLink

import K8Labs.CapiAddons.Secrets
import K8Labs.Contiguous.Parts
import Mathlib.Data.String.Basic
import Mathlib.Order.Bounds.Basic

/-!
# The groups of `split_by_size`

The loop keeps the groups tight (`tight_splitBySize`), so they are fewest.  `splitBySize_spec` says
when `split_by_size` raises and what it returns otherwise.
-/

namespace CapiAddons

open Contiguous (Tight weight)

variable {baseName : String} {threshold : ℤ} {entries rest : List ManifestEntry}
  {entry : ManifestEntry} {groups groups' : List SecretGroup}

/-- The size of an entry, as the threshold is one. -/
def ManifestEntry.size (entry : ManifestEntry) : ℤ := entry.encodedSize

/-- A cut of the sorted entries into groups within the threshold. -/
structure IsSplit (threshold : ℤ) (entries : List ManifestEntry)
    (parts : List (List ManifestEntry)) : Prop where
  flatten : parts.flatten = sortedByKey entries
  fits : ∀ part ∈ parts, weight ManifestEntry.size part ≤ threshold

/-- What the loop keeps. -/
structure TightGroups (threshold : ℤ) (groups : List SecretGroup) : Prop where
  tight : Tight ManifestEntry.size threshold (groups.map SecretGroup.entries)
  sizes : ∀ group ∈ groups, (group.encodedSize : ℤ) = weight ManifestEntry.size group.entries

theorem pairwise_sortedByKey (entries : List ManifestEntry) :
    (sortedByKey entries).Pairwise fun a b => a.key ≤ b.key :=
  have : Std.Total fun a b : ManifestEntry => a.key ≤ b.key := ⟨fun a b => le_total a.key b.key⟩
  have : IsTrans ManifestEntry fun a b => a.key ≤ b.key := ⟨fun _ _ _ => le_trans⟩
  List.pairwise_insertionSort _ _

theorem pack_eq_error_iff :
    (∃ e, pack baseName threshold groups entry = .error e) ↔ threshold < entry.encodedSize := by
  unfold pack
  split_ifs with h
  · exact iff_of_true ⟨_, rfl⟩ h
  · refine iff_of_false ?_ h
    rintro ⟨e, he⟩
    split at he
    · split_ifs at he
    · cases he

theorem size_add {group : SecretGroup}
    (h : (group.encodedSize : ℤ) = weight ManifestEntry.size group.entries) :
    ((group.add entry).encodedSize : ℤ) = weight ManifestEntry.size (group.add entry).entries := by
  have hentry : weight ManifestEntry.size [entry] = entry.encodedSize := List.sum_singleton
  simp only [SecretGroup.add, Nat.cast_add, Contiguous.weight_append, h, hentry]

/-- Another group behind a full one, or the first. -/
theorem TightGroups.open (h : TightGroups threshold groups)
    (hfull : ∀ current ∈ groups.getLast?,
      threshold < (current.encodedSize + entry.encodedSize : ℕ)) :
    TightGroups threshold
      (groups ++ [(SecretGroup.opened baseName groups.length).add entry]) where
  tight := by
    rw [List.map_append, List.map_singleton]
    show Tight ManifestEntry.size threshold (groups.map SecretGroup.entries ++ [[entry]])
    rcases List.eq_nil_or_concat groups with rfl | ⟨before, current, rfl⟩
    · exact Contiguous.tight_singleton entry
    · rw [List.concat_eq_append] at h hfull ⊢
      have htight := h.tight
      rw [List.map_append, List.map_singleton] at htight ⊢
      refine htight.open ?_
      rw [← h.sizes current (by simp)]
      exact_mod_cast hfull current (by simp)
  sizes group hgroup := by
    rcases List.mem_append.1 hgroup with hgroup | hgroup
    · exact h.sizes group hgroup
    · rw [List.mem_singleton.1 hgroup]
      exact size_add rfl

/-- One more entry in the last group. -/
theorem TightGroups.extend {current : SecretGroup} (h : TightGroups threshold groups)
    (hlast : groups.getLast? = some current) :
    TightGroups threshold (groups.dropLast ++ [current.add entry]) := by
  obtain ⟨before, rfl⟩ := List.getLast?_eq_some_iff.1 hlast
  rw [List.dropLast_concat]
  constructor
  · have htight := h.tight
    rw [List.map_append, List.map_singleton] at htight ⊢
    exact htight.extend
  · intro group hgroup
    rcases List.mem_append.1 hgroup with hgroup | hgroup
    · exact h.sizes group (List.mem_append_left _ hgroup)
    · rw [List.mem_singleton.1 hgroup]
      exact size_add (h.sizes current (by simp))

theorem TightGroups.pack (h : TightGroups threshold groups)
    (hpack : pack baseName threshold groups entry = .ok groups') :
    TightGroups threshold groups' := by
  unfold CapiAddons.pack at hpack
  split_ifs at hpack
  split at hpack
  · next current hlast =>
    split_ifs at hpack with hfull
    · cases hpack
      refine h.open fun last hlast' => ?_
      rw [hlast] at hlast'
      cases hlast'
      exact hfull
    · cases hpack
      exact h.extend hlast
  · next hlast =>
    cases hpack
    refine h.open fun last hlast' => ?_
    rw [hlast] at hlast'
    cases hlast'

theorem tight_splitBySize (h : splitBySize entries baseName threshold = .ok groups) :
    TightGroups threshold groups := by
  have hempty : TightGroups threshold [] := ⟨Contiguous.tight_nil, fun _ hgroup => nomatch hgroup⟩
  exact Py.fold_invariant (fun _ _ _ hgroups hpack => hgroups.pack hpack) hempty h

/-- The loop raises at the first entry that is too large. -/
theorem fold_eq_error_iff :
    (∃ e, Py.fold (pack baseName threshold) groups rest = .error e) ↔
      ∃ entry ∈ rest, threshold < entry.encodedSize := by
  induction rest generalizing groups with
  | nil =>
    refine iff_of_false ?_ ?_
    · rintro ⟨e, he⟩
      cases he
    · rintro ⟨entry, hmem, -⟩
      cases hmem
  | cons entry rest ih =>
    rw [Py.fold, List.exists_mem_cons_iff, ← @pack_eq_error_iff baseName threshold entry groups]
    cases hpack : pack baseName threshold groups entry with
    | error e => exact iff_of_true ⟨e, rfl⟩ (.inl ⟨e, rfl⟩)
    | ok groups' =>
      refine ih.trans (or_iff_right ?_).symm
      rintro ⟨e, he⟩
      cases he

/-- **When `split_by_size` raises, and what it returns otherwise.** -/
theorem splitBySize_spec (entries : List ManifestEntry) (baseName : String) (threshold : ℤ) :
    (sortedByKey entries).Perm entries ∧
    ((sortedByKey entries).Pairwise fun a b => a.key ≤ b.key) ∧
    match splitBySize entries baseName threshold with
    | .error _ => ∃ entry ∈ entries, threshold < entry.encodedSize
    | .ok groups => (∀ entry ∈ entries, (entry.encodedSize : ℤ) ≤ threshold) ∧
        Packed baseName threshold (sortedByKey entries) groups ∧
        IsLeast {n | ∃ parts, IsSplit threshold entries parts ∧ parts.length = n}
          groups.length := by
  refine ⟨perm_sortedByKey entries, pairwise_sortedByKey entries, ?_⟩
  have herror : (∃ e, splitBySize entries baseName threshold = .error e) ↔
      ∃ entry ∈ entries, threshold < entry.encodedSize := by
    rw [splitBySize, fold_eq_error_iff]
    exact exists_congr fun entry => and_congr_left fun _ => (perm_sortedByKey entries).mem_iff
  cases hsplit : splitBySize entries baseName threshold with
  | error e => exact herror.1 ⟨e, hsplit⟩
  | ok groups =>
    have hpacked := packed_splitBySize hsplit
    have htight := tight_splitBySize hsplit
    refine ⟨fun entry hentry => not_lt.1 fun hlarge => ?_, hpacked, ?_, ?_⟩
    · obtain ⟨e, he⟩ := herror.2 ⟨entry, hentry, hlarge⟩
      rw [hsplit] at he
      cases he
    · refine ⟨groups.map SecretGroup.entries, ⟨?_, ?_⟩, List.length_map ..⟩
      · rw [← hpacked.entries_eq, List.flatMap_def]
      · intro part hpart
        obtain ⟨group, hgroup, rfl⟩ := List.mem_map.1 hpart
        rw [← htight.sizes group hgroup]
        exact (hpacked.fits group hgroup).1
    · rintro n ⟨parts, hparts, rfl⟩
      have hflatten : parts.flatten = (groups.map SecretGroup.entries).flatten := by
        rw [hparts.flatten, ← hpacked.entries_eq, List.flatMap_def]
      have hsize : ∀ entry : ManifestEntry, 0 ≤ entry.size := fun entry =>
        Int.natCast_nonneg entry.encodedSize
      have hlength := htight.tight.length_le hsize hflatten hparts.fits
      rwa [List.length_map] at hlength

end CapiAddons

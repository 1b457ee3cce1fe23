import VectorIcons.Proofs.Pack.Frames

/-!
# Packs that a builder writes

A builder that took every addition of a list holds just these (`foldlM_add_eq_ok_iff`), and it
can be encoded if and only if the sizes of its sections can be stated (`encode_eq_ok_iff`).

That is not enough for the bytes to be loaded.  Loading refuses an icon section of more than
1 MiB, and this is the only limit that a builder does not know: `ofBytes_encode_eq_ok_iff`.
-/

namespace VectorIcons

/-! ## Asking a builder in sequence -/

namespace PackBuilder

theorem foldlM_add_eq_ok_iff {asked : List Addition} {builder after : PackBuilder} :
    asked.foldlM add builder = .ok after ↔
      (∀ addition ∈ asked, addition.Acceptable) ∧
        after.additions.toList = builder.additions.toList ++ asked := by
  induction asked generalizing builder with
  | nil =>
      obtain ⟨before⟩ := builder
      obtain ⟨added⟩ := after
      change Except.ok _ = Except.ok _ ↔ _
      rw [Except.ok.injEq, mk.injEq, List.append_nil, Array.toList_inj, eq_comm]
      exact (and_iff_right (List.forall_mem_nil _)).symm
  | cons first others ih =>
      rw [List.foldlM_cons, List.forall_mem_cons]
      by_cases hfirst : first.Acceptable
      · rw [add_eq_ok_iff.mpr ⟨hfirst, rfl⟩, and_iff_right hfirst]
        change others.foldlM add (builder.push first) = .ok after ↔ _
        rw [ih, push, Array.toList_push, List.append_assoc, List.singleton_append]
      · refine iff_of_false ?_ fun hall => hfirst hall.1.1
        cases hadd : builder.add first with
        | ok taken => exact absurd (add_eq_ok_iff.mp hadd).1 hfirst
        | error cause =>
            intro hbind
            cases hbind

end PackBuilder

/-! ## Sizes that can be stated -/

theorem unstated?_eq_none_iff {length : Nat} :
    unstated? length = none ↔ length ≤ maxStatedSize := by
  unfold unstated?
  split <;> simp [*]

/-- The size of each program can be stated if that of the section can. -/
theorem Addition.unstated?_eq_none_iff_stated (addition : Addition) :
    addition.unstated? = none ↔ addition.toSection.Stated := by
  unfold Addition.unstated?
  rw [List.findSome?_eq_none_iff, List.forall_mem_append, List.forall_mem_singleton,
    VectorIcons.unstated?_eq_none_iff]
  refine and_iff_right_of_imp fun hstated => ?_
  cases addition with
  | palette slot colors => exact List.forall_mem_nil _
  | other tag payload => exact List.forall_mem_nil _
  | icon name variants =>
      change (Section.ofPrograms name variants).payload.length ≤ maxStatedSize at hstated
      rw [length_payload_ofPrograms] at hstated
      rw [List.forall_mem_map]
      intro variant hvariant
      have hle := length_program_le hvariant
      exact VectorIcons.unstated?_eq_none_iff.mpr (by omega)

namespace PackBuilder

/-- **A pack can be encoded if and only if the sizes of its sections can be stated.** -/
theorem encode_eq_ok_iff {builder : PackBuilder} {bytes : Bytes} :
    builder.encode = .ok bytes ↔
      (∀ written ∈ builder.sections, written.Stated) ∧ bytes = builder.bytes := by
  have hstated : builder.additions.toList.findSome? Addition.unstated? = none ↔
      ∀ written ∈ builder.sections, written.Stated := by
    rw [List.findSome?_eq_none_iff, sections, List.forall_mem_map]
    exact forall₂_congr fun addition _ => addition.unstated?_eq_none_iff_stated
  unfold encode
  rw [← hstated]
  cases builder.additions.toList.findSome? Addition.unstated? with
  | none => simp [eq_comm]
  | some length => simp

end PackBuilder

/-! ## Loading what was written -/

section Loading

variable {asked : List Addition} {builder : PackBuilder} {bytes : Bytes}

theorem sections_of_foldlM_add (hadd : asked.foldlM PackBuilder.add .empty = .ok builder) :
    builder.sections = asked.map Addition.toSection := by
  rw [PackBuilder.sections, (PackBuilder.foldlM_add_eq_ok_iff.mp hadd).2]
  rfl

/-- An icon of a pack that is loaded has no more than 1 MiB. -/
theorem length_le_of_loaded (hadd : asked.foldlM PackBuilder.add .empty = .ok builder)
    (hencode : builder.encode = .ok bytes) {pack : Pack}
    (hload : (Pack.ofBytes bytes).result = .ok pack) {name : String}
    {variants : List VariantProgram} (hicon : .icon name variants ∈ asked) :
    (Section.ofPrograms name variants).payload.length ≤ Section.maxIconSize := by
  obtain ⟨hstated, rfl⟩ := PackBuilder.encode_eq_ok_iff.mp hencode
  obtain ⟨count, loaded, hbytes, hformed, -⟩ := Pack.ofBytes_eq_ok_iff.mp hload
  -- The sections that were written and those that are loaded lie in the same bytes.
  have hframes : builder.sections.map Section.frame = loaded.map Section.frame := by
    have hbehind := frames_drop_packBytes count fun written hwritten =>
      (hformed written hwritten).stated
    rw [← hbytes] at hbehind
    exact (frames_drop_packBytes _ hstated).symm.trans hbehind
  have hmem : (Section.ofPrograms name variants).frame ∈ loaded.map Section.frame := by
    rw [← hframes, sections_of_foldlM_add hadd]
    exact List.mem_map_of_mem (List.mem_map_of_mem hicon)
  obtain ⟨written, hwritten, hframe⟩ := List.mem_map.mp hmem
  obtain ⟨htag, hpayload⟩ := Frame.mk.inj hframe
  have hwrittenFormed := hformed written hwritten
  rw [← hpayload]
  cases written with
  | palette slot colors => cases htag
  | icon loadedName records data => exact hwrittenFormed.2.2.2.2
  | other tag payload => exact absurd htag hwrittenFormed.2.1

/-- **What a builder wrote is loaded if and only if none of its icons has more than 1 MiB.** -/
theorem ofBytes_encode_eq_ok_iff
    (hother : ∀ tag payload, .other tag payload ∈ asked → tag ≠ .palette ∧ tag ≠ .icon)
    (hadd : asked.foldlM PackBuilder.add .empty = .ok builder)
    (hencode : builder.encode = .ok bytes) :
    (∃ pack, (Pack.ofBytes bytes).result = .ok pack) ↔
      ∀ name variants, .icon name variants ∈ asked →
        1 + (Text.utf8Bytes name).length + 1 + 8 * variants.length +
          programLength variants ≤ 0x100000 := by
  constructor
  · rintro ⟨pack, hload⟩ name variants hicon
    rw [← length_payload_ofPrograms]
    exact length_le_of_loaded hadd hencode hload hicon
  · intro hicons
    obtain ⟨hstated, rfl⟩ := PackBuilder.encode_eq_ok_iff.mp hencode
    have hacceptable := (PackBuilder.foldlM_add_eq_ok_iff.mp hadd).1
    rw [sections_of_foldlM_add hadd, List.forall_mem_map] at hstated
    have hfits : ∀ addition ∈ asked, addition.Fits := by
      intro addition hmem
      cases addition with
      | palette slot colors => trivial
      | icon name variants => exact hicons name variants hmem
      | other tag payload =>
          obtain ⟨hpalette, hicon⟩ := hother tag payload hmem
          exact ⟨hpalette, hicon, Nat.lt_succ_of_le (hstated _ hmem)⟩
    refine ⟨Pack.ofSections builder.sections,
      Pack.ofBytes_eq_ok_iff.mpr ⟨_, builder.sections, rfl, ?_, rfl⟩⟩
    rw [sections_of_foldlM_add hadd, List.forall_mem_map]
    exact fun addition hmem =>
      Addition.wellFormed_toSection (hacceptable addition hmem) (hfits addition hmem)

end Loading

/-- A palette, an icon and a section of another kind. -/
theorem ofBytes_encode_eq_ok_iff_of_small :
    (∀ tag payload, .other tag payload ∈ [Addition.palette 0 [⟨1, 2, 3, 4⟩],
        .icon "a" [⟨1, 1, [0xff]⟩], .other ⟨0x58, 0x58, 0x58, 0x58⟩ [7]] →
      tag ≠ .palette ∧ tag ≠ .icon) ∧
    ∃ builder bytes, [Addition.palette 0 [⟨1, 2, 3, 4⟩], .icon "a" [⟨1, 1, [0xff]⟩],
        .other ⟨0x58, 0x58, 0x58, 0x58⟩ [7]].foldlM PackBuilder.add .empty = .ok builder ∧
      builder.encode = .ok bytes ∧ ∃ pack, (Pack.ofBytes bytes).result = .ok pack := by
  have hother : ∀ tag payload, .other tag payload ∈ [Addition.palette 0 [⟨1, 2, 3, 4⟩],
      .icon "a" [⟨1, 1, [0xff]⟩], .other ⟨0x58, 0x58, 0x58, 0x58⟩ [7]] →
      tag ≠ .palette ∧ tag ≠ .icon := by
    intro tag payload hmem
    simp only [List.mem_cons, reduceCtorEq, List.not_mem_nil, or_false, false_or,
      Addition.other.injEq] at hmem
    rw [hmem.1]
    decide
  refine ⟨hother, ⟨#[.palette 0 [⟨1, 2, 3, 4⟩], .icon "a" [⟨1, 1, [0xff]⟩],
    .other ⟨0x58, 0x58, 0x58, 0x58⟩ [7]]⟩, _, rfl, rfl, ?_⟩
  refine (ofBytes_encode_eq_ok_iff hother rfl rfl).mpr fun name variants hmem => ?_
  simp only [List.mem_cons, reduceCtorEq, List.not_mem_nil, or_false, false_or,
    Addition.icon.injEq] at hmem
  rw [hmem.1, hmem.2]
  decide

theorem length_payload_replicate (count : Nat) :
    (Section.ofPrograms "a" [⟨1, 1, List.replicate count 0⟩]).payload.length = 11 + count := by
  have hname : (Text.utf8Bytes "a").length = 1 := rfl
  rw [length_payload_ofPrograms, hname, programLength, List.map_cons, List.length_replicate]
  simp

/-- An icon of one byte more than loading takes is written, but it is not loaded again. -/
theorem not_loaded_of_oversized :
    ∃ builder bytes,
      [Addition.icon "a" [⟨1, 1, List.replicate 1048566 0⟩]].foldlM PackBuilder.add .empty =
        .ok builder ∧
      builder.encode = .ok bytes ∧ ∀ pack, (Pack.ofBytes bytes).result ≠ .ok pack := by
  have hlength := length_payload_replicate 1048566
  have hadd : [Addition.icon "a" [⟨1, 1, List.replicate 1048566 0⟩]].foldlM PackBuilder.add
      .empty = .ok ⟨#[.icon "a" [⟨1, 1, List.replicate 1048566 0⟩]]⟩ := by
    refine PackBuilder.foldlM_add_eq_ok_iff.mpr ⟨?_, rfl⟩
    rw [List.forall_mem_singleton]
    exact ⟨⟨by decide, by decide⟩, Nat.one_pos, by decide⟩
  have hencode := PackBuilder.encode_eq_ok_iff.mpr (show
    (∀ written ∈ PackBuilder.sections ⟨#[.icon "a" [⟨1, 1, List.replicate 1048566 0⟩]]⟩,
      written.Stated) ∧ _ = _ from ⟨?_, rfl⟩)
  · refine ⟨_, _, hadd, hencode, fun pack hload => ?_⟩
    have hle := length_le_of_loaded hadd hencode hload List.mem_cons_self
    rw [hlength] at hle
    exact absurd hle (by decide)
  · rw [sections_of_foldlM_add hadd, List.map_singleton, List.forall_mem_singleton]
    exact Nat.le_trans (Nat.le_of_eq hlength) (by decide)

end VectorIcons

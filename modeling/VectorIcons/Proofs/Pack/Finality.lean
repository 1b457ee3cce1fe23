import VectorIcons.Proofs.Pack.PassedOver

/-!
# Failures that are final

A load that fails for what its bytes say fails alike with any bytes behind them: it has read what it
objects to, and looks no further.  `LoadError.isContent` names these failures.  The others are about
bytes that are missing, and more bytes can be just what is needed.

## Strategy

Two loads are compared, of which the second has more bytes behind those of the first one,
`Prolonged`.  A part of a load is `Final` if it makes no difference to them, unless the first one
misses a byte.  Reads of fields are final, and so are parts in a row, `law_final`.  A tag is the
exception: where the first stream ends and the load is done, the second one may go on.  But then
the first load does not fail.

What decides such a failure is the first section that is not well-formed, `firstMalformedDecides`:
a load that fails in its sections has read all those before, `exists_broken_of_sections`.
-/

namespace VectorIcons

open ByteStream

/-- Whether a load fails for what the bytes say, not for bytes that are missing. -/
def LoadError.isContent : LoadError → Bool
  | .invalidHeader => true
  | .truncatedHeading _ => false
  | .io _ => false
  | .record _ => false
  | .paletteSizeMismatch _ _ => true
  | .emptyName => true
  | .invalidName _ => true
  | .noVariants _ => true
  | .iconTooSmall _ _ => true
  | .iconTooLarge _ => true
  | .outOfBounds _ _ => false

namespace Loader

/-! ## Two loads side by side -/

/-- Where the stream of the first load ends, that of the second one goes on with `behind`.  Both
loads have told the same. -/
structure Prolonged (behind : Bytes) (first second : LoadState) : Prop where
  rest_eq : second.stream.rest = first.stream.rest ++ behind
  fault_eq : first.stream.faultAhead = none
  fault_eq_second : second.stream.faultAhead = none
  inside : first.stream.Inside
  inside_second : second.stream.Inside
  events_eq : second.events = first.events

/-- Two runs that give the same, unless the first one fails because a byte is missing. -/
inductive Outlasts (behind : Bytes) {α : Type} :
    EStateM.Result LoadError LoadState α → EStateM.Result LoadError LoadState α → Prop
  | ok (value : α) {first second : LoadState} (hprolonged : Prolonged behind first second) :
      Outlasts behind (.ok value first) (.ok value second)
  | error (cause : LoadError) {first second : LoadState} (hevents : second.events = first.events) :
      Outlasts behind (.error cause first) (.error cause second)
  | short {cause : LoadError} (hcause : cause.isContent = false) (first : LoadState)
      (second : EStateM.Result LoadError LoadState α) : Outlasts behind (.error cause first) second

/-- Whether more bytes behind those of a stream make no difference to a part of a load. -/
def Final {α : Type} (part : Loader α) : Prop :=
  ∀ behind first second, Prolonged behind first second →
    Outlasts behind (part first) (part second)

section Prolonged

variable {behind : Bytes} {first second : LoadState}

theorem Prolonged.available_first (hprolonged : Prolonged behind first second) :
    first.stream.available = first.stream.rest.length := by
  unfold ByteStream.available
  rw [hprolonged.fault_eq]

theorem Prolonged.available_second (hprolonged : Prolonged behind first second) :
    second.stream.available = first.stream.rest.length + behind.length := by
  unfold ByteStream.available
  rw [hprolonged.fault_eq_second, hprolonged.rest_eq]
  exact List.length_append

theorem Prolonged.push (hprolonged : Prolonged behind first second) (event : LoadEvent) :
    Prolonged behind { first with events := first.events.push event }
      { second with events := second.events.push event } :=
  { hprolonged with events_eq := by rw [hprolonged.events_eq] }

/-- Both loads move on by bytes that both streams have. -/
theorem Prolonged.skip (hprolonged : Prolonged behind first second) {count : Nat}
    (hcount : count ≤ first.stream.rest.length) {after afterSecond : LoadState}
    (same : SameContent after.stream (first.stream.skip count))
    (sameSecond : SameContent afterSecond.stream (second.stream.skip count))
    (hevents : afterSecond.events = after.events) : Prolonged behind after afterSecond where
  rest_eq := by
    rw [same.rest_eq, sameSecond.rest_eq]
    show second.stream.rest.drop count = first.stream.rest.drop count ++ behind
    rw [hprolonged.rest_eq, List.drop_append_of_le_length hcount]
  fault_eq := by
    rw [same.fault_eq, faultAhead_skip, hprolonged.fault_eq]
    rfl
  fault_eq_second := by
    rw [sameSecond.fault_eq, faultAhead_skip, hprolonged.fault_eq_second]
    rfl
  inside := same.inside_of_skip hprolonged.inside hcount
  inside_second := by
    apply sameSecond.inside_of_skip hprolonged.inside_second
    rw [hprolonged.rest_eq, List.length_append]
    exact Nat.le_add_right_of_le hcount
  events_eq := hevents

end Prolonged

/-! ## The law -/

theorem Outlasts.bind {α β : Type} {behind : Bytes} {part : Loader α} {next : α → Loader β}
    {first second : LoadState} (hpart : Outlasts behind (part first) (part second))
    (hnext : ∀ value, Final (next value)) :
    Outlasts behind ((part >>= next) first) ((part >>= next) second) := by
  show Outlasts behind (EStateM.bind part next first) (EStateM.bind part next second)
  unfold EStateM.bind
  revert hpart
  generalize part first = one
  generalize part second = other
  intro hpart
  cases hpart with
  | ok value hprolonged => exact hnext value _ _ _ hprolonged
  | error cause hevents => exact .error cause hevents
  | short hcause one other => exact .short hcause one _

theorem final_pure {α : Type} (value : α) : Final (pure value : Loader α) :=
  fun _ _ _ hprolonged => .ok value hprolonged

/-- Bytes that both streams have are read alike. -/
theorem outlasts_fill {behind : Bytes} {first second : LoadState} {count : Nat}
    (hprolonged : Prolonged behind first second) (hcount : count ≤ first.stream.rest.length) :
    Outlasts behind (fill count first) (fill count second) := by
  have havailable : count ≤ first.stream.available := by
    rwa [hprolonged.available_first]
  have havailableSecond : count ≤ second.stream.available := by
    rw [hprolonged.available_second]
    omega
  have same := sameContent_fill first.stream count
  have sameSecond := sameContent_fill second.stream count
  rw [Nat.min_eq_left havailable] at same
  rw [Nat.min_eq_left havailableSecond] at sameSecond
  show Outlasts behind (.ok (first.stream.fill count).1 (first.move _ (bytes_fill _ _)))
    (.ok (second.stream.fill count).1 (second.move _ (bytes_fill _ _)))
  rw [fill_filled, fill_filled, Nat.min_eq_left havailable, Nat.min_eq_left havailableSecond,
    if_pos havailable, if_pos havailableSecond, hprolonged.rest_eq,
    List.take_append_of_le_length hcount]
  exact .ok _ (hprolonged.skip hcount same sameSecond hprolonged.events_eq)

theorem outlasts_take {behind : Bytes} {first second : LoadState} {count : Nat}
    {otherwise : ReadFailure → Loader Bytes} (hprolonged : Prolonged behind first second)
    (hcount : count ≤ first.stream.rest.length)
    (hotherwise : ∀ failure, Final (otherwise failure)) :
    Outlasts behind (take count otherwise first) (take count otherwise second) := by
  apply (outlasts_fill hprolonged hcount).bind
  intro filled
  split
  · exact final_pure _
  · exact hotherwise _

/-- A read makes the same of more bytes, unless it misses some and fails for that. -/
theorem final_take (count : Nat) {otherwise : ReadFailure → Loader Bytes}
    (hotherwise : ∀ failure state, ∃ cause after, otherwise failure state = .error cause after ∧
      cause.isContent = false) : Final (take count otherwise) := by
  intro behind first second hprolonged
  have hfinal : ∀ failure, Final (otherwise failure) := by
    intro failure behind first second _
    obtain ⟨cause, after, hfails, hcause⟩ := hotherwise failure first
    rw [hfails]
    exact .short hcause after _
  by_cases hcount : count ≤ first.stream.rest.length
  · exact outlasts_take hprolonged hcount hfinal
  · have hshort : first.stream.available < count := by
      rw [hprolonged.available_first]
      omega
    obtain ⟨between, hbetween⟩ := take_of_lt otherwise hshort
    obtain ⟨cause, after, hfails, hcause⟩ := hotherwise first.stream.shortage between
    rw [hbetween, hfails]
    exact .short hcause after _

theorem final_refuse {α : Type} (event : LoadEvent) (cause : LoadError) :
    Final (refuse event cause : Loader α) :=
  fun _ _ _ hprolonged => .error cause (hprolonged.push event).events_eq

/-- So the fields of palettes and icons are final. -/
theorem law_final : FieldLaw @Final where
  «pure» := final_pure
  bind hpart hnext behind first second hprolonged :=
    (hpart behind first second hprolonged).bind hnext
  tell _ _ _ _ hprolonged := .ok () (hprolonged.push _)
  refuse _ _ := final_refuse _ _
  plain count := final_take count fun _ state => ⟨_, state, rfl, rfl⟩
  record count := final_take count fun _ state => ⟨_, state, rfl, rfl⟩

/-! ## Sections -/

theorem final_size : Final size :=
  law_final.bind (final_take 4 fun _ _ => ⟨_, _, rfl, rfl⟩) fun _ => law_final.pure _

theorem final_other (tag : Tag) (size : UInt32) : Final (other tag size) := by
  intro behind first second hprolonged
  unfold other
  by_cases hend : first.stream.position + size.toNat ≤ first.ending
  · obtain ⟨-, hcount⟩ := position_add_le_ending_iff.mp hend
    have hcountSecond : size.toNat ≤ second.stream.rest.length := by
      rw [hprolonged.rest_eq, List.length_append]
      omega
    have hendSecond := position_add_le_ending_iff.mpr ⟨hprolonged.inside_second, hcountSecond⟩
    have hskip : Prolonged behind (first.move (first.stream.skip size.toNat) rfl)
        (second.move (second.stream.skip size.toNat) rfl) :=
      hprolonged.skip hcount (SameContent.refl _) (SameContent.refl _) hprolonged.events_eq
    rw [bind_of_ok (passOver_of_le hend), bind_of_ok (passOver_of_le hendSecond),
      hprolonged.rest_eq, List.take_append_of_le_length hcount]
    exact .ok _ (hskip.push _)
  · rw [bind_of_ok (passOver_of_lt (Nat.not_le.mp hend))]
    exact .short rfl _ _

theorem final_payload (tag : Tag) (size : UInt32) : Final (payload tag size) := by
  unfold payload
  split
  · exact law_final.palette size
  · split
    · exact law_final.icon size
    · exact final_other tag size

theorem final_sized (tag : Tag) : Final (sized tag) :=
  law_final.bind final_size fun size => law_final.bind (law_final.tell rfl) fun _ =>
    law_final.bind (final_payload tag size) fun _ => law_final.pure _

/-! ## Tags -/

theorem final_tagOf? (filled : ByteStream.Filled) : Final (tagOf? filled) := by
  unfold tagOf?
  split
  · exact fun _ _ _ _ => .short rfl _ _
  · exact final_pure _
  · exact final_pure _
  · exact final_refuse _ _

/-- A tag that cannot be read is missing bytes. -/
theorem isContent_of_tagOf? {filled : ByteStream.Filled} {state after : LoadState}
    {cause : LoadError} (hrun : tagOf? filled state = .error cause after) :
    cause.isContent = false := by
  unfold tagOf? at hrun
  split at hrun
  · cases hrun
    rfl
  · cases hrun
  · cases hrun
  · cases hrun
    rfl

/-- Where the first stream ends, there is no tag, but in the second stream there may be one. -/
theorem outlasts_tag? {behind : Bytes} {first second : LoadState}
    (hprolonged : Prolonged behind first second) :
    Outlasts behind (tag? first) (tag? second) ∨ ∃ after, tag? first = .ok none after := by
  by_cases hcount : 4 ≤ first.stream.rest.length
  · exact .inl ((outlasts_fill hprolonged hcount).bind final_tagOf?)
  · have hshort : first.stream.available < 4 := by
      rw [hprolonged.available_first]
      omega
    cases hrun : tag? first with
    | ok found after =>
        obtain ⟨rfl, -, -⟩ := tag?_of_lt hshort hrun
        exact .inr ⟨after, rfl⟩
    | error cause after =>
        obtain ⟨between, hfill, -⟩ := exists_fill_eq 4 first
        rw [tag?, bind_of_ok hfill] at hrun
        exact .inl (.short (isContent_of_tagOf? hrun) after _)

theorem outlasts_section? {behind : Bytes} {first second : LoadState}
    (hprolonged : Prolonged behind first second) :
    Outlasts behind (section? first) (section? second) ∨
      ∃ after, section? first = .ok none after := by
  rcases outlasts_tag? hprolonged with htag | ⟨after, hnone⟩
  · refine .inl (htag.bind fun tag => ?_)
    cases tag with
    | none => exact final_pure none
    | some tag => exact final_sized tag
  · exact .inr ⟨after, bind_of_ok hnone⟩

/-! ## Whole loads -/

/-- What the first run fails with because of what its bytes say, the second one fails with. -/
def FailsAlike {α : Type} (one other : EStateM.Result LoadError LoadState α) : Prop :=
  ∀ cause after, one = .error cause after → cause.isContent = true →
    ∃ afterSecond, other = .error cause afterSecond ∧ afterSecond.events = after.events

section FailsAlike

variable {α β : Type} {behind : Bytes} {first second : LoadState} {part : Loader α}
  {next : α → Loader β}

theorem failsAlike_of_ok {value : α} {one other : EStateM.Result LoadError LoadState α}
    (hok : one = .ok value first) : FailsAlike one other := by
  intro cause after hfails
  cases hok.symm.trans hfails

/-- Behind final parts, what fails alike fails alike. -/
theorem Outlasts.failsAlike_bind (hpart : Outlasts behind (part first) (part second))
    (hnext : ∀ value between betweenSecond, part first = .ok value between →
      Prolonged behind between betweenSecond →
        FailsAlike (next value between) (next value betweenSecond)) :
    FailsAlike ((part >>= next) first) ((part >>= next) second) := by
  show FailsAlike (EStateM.bind part next first) (EStateM.bind part next second)
  unfold EStateM.bind
  revert hpart hnext
  generalize part first = one
  generalize part second = other
  intro hpart hnext
  cases hpart with
  | ok value hprolonged => exact hnext value _ _ rfl hprolonged
  | error cause hevents =>
      rintro _ _ ⟨⟩ -
      exact ⟨_, rfl, hevents⟩
  | short hcause one other =>
      rintro _ _ ⟨⟩ hcontent
      rw [hcause] at hcontent
      cases hcontent

/-- Parts that cannot fail do not matter. -/
theorem FailsAlike.bind_of_ok (hpart : FailsAlike (part first) (part second))
    (hnext : ∀ value state, ∃ result after, next value state = .ok result after) :
    FailsAlike ((part >>= next) first) ((part >>= next) second) := by
  intro cause after hrun hcontent
  cases hfirst : part first with
  | ok value between =>
      rw [Loader.bind_of_ok hfirst] at hrun
      obtain ⟨result, last, hok⟩ := hnext value between
      cases hok.symm.trans hrun
  | error other between =>
      rw [bind_of_error hfirst] at hrun
      cases hrun
      obtain ⟨afterSecond, hsecond, hevents⟩ := hpart _ _ hfirst hcontent
      exact ⟨afterSecond, bind_of_error hsecond, hevents⟩

end FailsAlike

theorem failsAlike_sections {behind : Bytes} {first second : LoadState}
    (hprolonged : Prolonged behind first second) :
    FailsAlike (sections first) (sections second) := by
  induction first using sections_induction generalizing second with
  | step first ih =>
      rw [sections_eq]
      rcases outlasts_section? hprolonged with hsection | ⟨after, hnone⟩
      · apply hsection.failsAlike_bind
        intro found between betweenSecond hfound hbetween
        cases found with
        | none => exact failsAlike_of_ok rfl
        | some found =>
            show FailsAlike (((found :: ·) <$> sections) between)
              (((found :: ·) <$> sections) betweenSecond)
            rw [← bind_pure_comp]
            exact (ih found between hfound hbetween).bind_of_ok fun _ _ => ⟨_, _, rfl⟩
      · exact failsAlike_of_ok (bind_of_ok hnone)

/-- Of a header, the first stream must not miss anything. -/
theorem failsAlike_pack {behind : Bytes} {first second : LoadState}
    (hprolonged : Prolonged behind first second) (hheader : 8 ≤ first.stream.rest.length) :
    FailsAlike (pack first) (pack second) := by
  have houtlasts : Outlasts behind (header first) (header second) :=
    (outlasts_take hprolonged hheader fun _ => final_refuse _ _).bind fun _ =>
      law_final.bind (law_final.require _ rfl rfl) fun _ => law_final.tell rfl
  apply houtlasts.failsAlike_bind
  intro _ between betweenSecond _ hbetween
  exact (failsAlike_sections hbetween).bind_of_ok fun _ _ => ⟨_, _, rfl⟩

end Loader

open Loader

theorem load_eq_of_failsAlike {first second : ByteStream} {cause : LoadError}
    (halike : FailsAlike (Loader.pack (.start first)) (Loader.pack (.start second)))
    (hcontent : cause.isContent = true) (hfails : (Pack.load first).result = .error cause) :
    Pack.load second = Pack.load first := by
  unfold Pack.load at hfails ⊢
  cases hrun : Loader.pack (.start first) with
  | ok pack after =>
      rw [hrun] at hfails
      cases hfails
  | error other after =>
      rw [hrun] at hfails
      cases hfails
      obtain ⟨afterSecond, hsecond, hevents⟩ := halike _ _ hrun hcontent
      simp only [hsecond, hevents]

/-! ## The first malformed section -/

/-- Behind a header and some well-formed sections stands none, and what stands there fails so
behind any header. -/
def FirstMalformedDecides (bytes : Bytes) (cause : LoadError) : Prop :=
  ∃ (heading : Bytes) (earlier : List Section) (broken : Bytes), heading.length = 8 ∧
    bytes = heading ++ (earlier.flatMap Section.bytes ++ broken) ∧
    (∀ written ∈ earlier, written.WellFormed) ∧
    (∀ (written : Section) (behind : Bytes), written.WellFormed →
      broken ≠ written.bytes ++ behind) ∧
    ∀ count, (Pack.ofBytes (packHeader count ++ broken)).result = .error cause

theorem eq_error_of_map {α β : Type} {function : α → β} {run : Except LoadError α}
    {cause : LoadError} (hfails : run.map function = .error cause) : run = .error cause := by
  cases run with
  | ok value => cases hfails
  | error other => exact congrArg Except.error (Except.error.inj hfails)

/-- A load that fails in its sections has read those before the one that fails. -/
theorem exists_broken_of_sections {state : LoadState} {bytes : Bytes} {cause : LoadError}
    (same : SameContent state.stream (.ofBytes bytes))
    (hfails : given (sections state) = .error cause) :
    ∃ (earlier : List Section) (broken : Bytes),
      bytes = earlier.flatMap Section.bytes ++ broken ∧
      (∀ written ∈ earlier, written.WellFormed) ∧
      given (section? (.start (.ofBytes broken))) = .error cause := by
  induction state using sections_induction generalizing bytes with
  | step state ih =>
      rw [sections_eq] at hfails
      cases hsection : section? state with
      | ok found between =>
          rw [given_bind_of_ok hsection] at hfails
          cases found with
          | none => cases hfails
          | some found =>
              change given (((found :: ·) <$> sections) between) = _ at hfails
              rw [given_map] at hfails
              obtain ⟨hformed, ⟨behind, hrest⟩, sameAfter⟩ := section?_sound hsection
              obtain rfl : bytes = found.bytes ++ behind := same.rest_eq.symm.trans hrest
              -- Behind the section, the load is where one of the bytes behind it begins.
              have sameBetween : SameContent between.stream (.ofBytes behind) :=
                (sameAfter.trans (same.skip _)).trans (sameContent_skip_ofBytes _ _)
              obtain ⟨earlier, broken, rfl, hearlier, hbroken⟩ :=
                ih found between hsection sameBetween (eq_error_of_map hfails)
              refine ⟨found :: earlier, broken, ?_, List.forall_mem_cons.mpr ⟨hformed, hearlier⟩,
                hbroken⟩
              rw [List.flatMap_cons, List.append_assoc]
      | error other after =>
          have hsame := law_steady.section? state (.start (.ofBytes bytes)) same
          have hfirst : given (section? state) = .error other := by rw [hsection]; rfl
          rw [given_bind_of_error hfirst] at hfails
          refine ⟨[], bytes, rfl, List.forall_mem_nil _, ?_⟩
          rw [← hsame.given_eq, hfirst, Except.error.inj hfails]

theorem firstMalformedDecides {bytes : Bytes} {cause : LoadError} (hlength : 8 ≤ bytes.length)
    (hfails : (Pack.ofBytes bytes).result = .error cause) :
    cause = .invalidHeader ∨ FirstMalformedDecides bytes cause := by
  have hheading : (bytes.take 8).length = 8 := List.length_take_of_le hlength
  have hresult := @Pack.result_ofBytes_append (bytes.take 8) hheading (bytes.drop 8)
  rw [List.take_append_drop, hfails] at hresult
  split at hresult
  · right
    have hsections : given (sections (.start (.ofBytes (bytes.drop 8)))) = .error cause :=
      eq_error_of_map hresult.symm
    obtain ⟨earlier, broken, hrest, hearlier, hbroken⟩ :=
      exists_broken_of_sections (SameContent.refl _) hsections
    refine ⟨bytes.take 8, earlier, broken, hheading, ?_, hearlier, ?_, ?_⟩
    · rw [← hrest]
      exact (List.take_append_drop 8 bytes).symm
    · rintro written behind hformed rfl
      obtain ⟨between, hsection, -⟩ := exists_section?_ofBytes hformed behind
      rw [hsection] at hbroken
      cases hbroken
    · intro count
      rw [Pack.result_ofBytes_append (length_packHeader count), sectionsOf_eq_error hbroken]
      rfl
  · exact .inl (Except.error.inj hresult)

/-! ## Failures that are final -/

/-- How a load of `bytes` that fails is decided for good. -/
structure FailsForGood (bytes : Bytes) (cause : LoadError) : Prop where
  /-- Nothing behind the bytes makes a pack of them, or another failure. -/
  result : ∀ behind, (Pack.ofBytes (bytes ++ behind)).result = .error cause
  /-- Nor does it change what is told on the way. -/
  events : ∀ behind, (Pack.ofBytes (bytes ++ behind)).events = (Pack.ofBytes bytes).events
  decided : cause = .invalidHeader ∨ FirstMalformedDecides bytes cause

/-- **A load that fails for what its bytes say fails for good.** -/
theorem failsForGood_of_isContent {bytes : Bytes} {cause : LoadError}
    (hlength : 8 ≤ bytes.length) (hcontent : cause.isContent = true)
    (hfails : (Pack.ofBytes bytes).result = .error cause) : FailsForGood bytes cause := by
  have hsame : ∀ behind, Pack.ofBytes (bytes ++ behind) = Pack.ofBytes bytes := by
    intro behind
    have hprolonged : Prolonged behind (.start (.ofBytes bytes))
        (.start (.ofBytes (bytes ++ behind))) :=
      ⟨rfl, rfl, rfl, inside_ofBytes _, inside_ofBytes _, rfl⟩
    exact load_eq_of_failsAlike (failsAlike_pack hprolonged hlength) hcontent hfails
  constructor
  case result =>
    intro behind
    rw [hsame, hfails]
  case events =>
    intro behind
    rw [hsame]
  case decided => exact firstMalformedDecides hlength hfails

/-- An icon with an empty name behind a section that is passed over. -/
theorem failsForGood_of_empty_name :
    let bytes : Bytes := packHeader 1 ++ (Section.other ⟨0x58, 0x58, 0x58, 0x58⟩ [7]).bytes ++
      [0x49, 0x43, 0x4f, 0x4e, 2, 0, 0, 0, 0]
    8 ≤ bytes.length ∧ LoadError.emptyName.isContent = true ∧
      (Pack.ofBytes bytes).result = .error .emptyName ∧ FailsForGood bytes .emptyName := by
  intro bytes
  have hlength : 8 ≤ bytes.length := by decide +kernel
  -- Packs cannot be compared, so only the failure is evaluated.
  have hevaluated : (match (Pack.ofBytes bytes).result with
    | .ok _ => none
    | .error cause => some cause) = some .emptyName := by decide +kernel
  have hfails : (Pack.ofBytes bytes).result = .error .emptyName := by
    split at hevaluated
    · cases hevaluated
    · rename_i hresult
      rw [hresult, Option.some.inj hevaluated]
  exact ⟨hlength, rfl, hfails, failsForGood_of_isContent hlength rfl hfails⟩

end VectorIcons

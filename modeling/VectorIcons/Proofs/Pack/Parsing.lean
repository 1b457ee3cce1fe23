import VectorIcons.Pack.Load

/-!
# What the parts of a load take

`Parses part format` says of a part of a load that it succeeds exactly on the bytes
of a format: if the stream goes on with bytes of the format, the part takes them and
gives their value (`complete`), and if the part succeeds, then on bytes of the format
that the stream went on with (`sound`).  Neither direction looks at what comes behind
these bytes, and neither depends on how the stream cuts its bytes into pieces.  The stream
must not stand behind its end, though: there is no room there even for no bytes, if they are
to be passed over.

## Strategy

The law composes: `Parses.bind` puts the bytes of two parts one after the other, and
`bind_silent`, `bind_bytes` and `bind_byte` do so for first parts that take no bytes,
some bytes of any kind, and one byte.  So each part of a load needs one lemma, and the
format of a section is read off its parts.
-/

namespace VectorIcons

open ByteStream

/-! ## What is available -/

namespace ByteStream

theorem length_le_of_available {stream : ByteStream} {bytes : Bytes}
    (hbytes : bytes.length ≤ stream.available) : bytes.length ≤ stream.rest.length :=
  Nat.le_trans hbytes stream.available_le_length

/-- A stream that has bytes available does not stand behind its end. -/
theorem inside_of_available_pos {stream : ByteStream} (hpos : 0 < stream.available) :
    stream.Inside :=
  inside_of_length_pos (Nat.lt_of_lt_of_le hpos stream.available_le_length)

/-- Behind bytes that it has, a stream still does not stand behind its end. -/
theorem SameContent.inside_of_skip {stream after : ByteStream} {count : Nat}
    (same : SameContent after (stream.skip count)) (hinside : stream.Inside)
    (hcount : count ≤ stream.rest.length) : after.Inside :=
  same.inside_iff.mpr (inside_skip_iff.mpr ⟨hinside, hcount⟩)

theorem SameContent.inside_of_skip_available {stream after : ByteStream} {count : Nat}
    (same : SameContent after (stream.skip count)) (hinside : stream.Inside)
    (hcount : count ≤ stream.available) : after.Inside :=
  same.inside_of_skip hinside (Nat.le_trans hcount stream.available_le_length)

theorem rest_skip {stream : ByteStream} {bytes behind : Bytes}
    (hrest : stream.rest = bytes ++ behind) : (stream.skip bytes.length).rest = behind := by
  show stream.rest.drop bytes.length = behind
  rw [hrest, List.drop_left]

/-- A stream that runs short at its end, not at a fault, has all its bytes available. -/
theorem available_eq_length {stream : ByteStream} (hend : stream.shortage = .endOfStream) :
    stream.available = stream.rest.length := by
  unfold shortage at hend
  unfold available
  split at hend
  · rfl
  · split at hend
    · cases hend
    · omega

end ByteStream

namespace Loader

/-! ## Running two parts in a row -/

theorem bind_eq_ok_iff {α β : Type} {first : Loader α} {next : α → Loader β}
    {state after : LoadState} {value : β} :
    (first >>= next) state = .ok value after ↔
      ∃ earlier between, first state = .ok earlier between ∧
        next earlier between = .ok value after := by
  change EStateM.bind first next state = _ ↔ _
  unfold EStateM.bind
  cases hfirst : first state with
  | ok earlier between =>
      constructor
      · intro hnext
        exact ⟨earlier, between, rfl, hnext⟩
      · rintro ⟨_, _, hequal, hnext⟩
        cases hequal
        exact hnext
  | error cause between => simp

theorem bind_of_ok {α β : Type} {first : Loader α} {next : α → Loader β}
    {state between : LoadState} {earlier : α} (hfirst : first state = .ok earlier between) :
    (first >>= next) state = next earlier between := by
  change EStateM.bind first next state = _
  unfold EStateM.bind
  rw [hfirst]

theorem bind_of_error {α β : Type} {first : Loader α} {next : α → Loader β}
    {state between : LoadState} {cause : LoadError}
    (hfirst : first state = .error cause between) :
    (first >>= next) state = .error cause between := by
  change EStateM.bind first next state = _
  unfold EStateM.bind
  rw [hfirst]

theorem map_eq_ok_iff {α β : Type} {part : Loader α} {function : α → β} {state after : LoadState}
    {value : β} :
    (function <$> part) state = .ok value after ↔
      ∃ earlier, part state = .ok earlier after ∧ function earlier = value := by
  change EStateM.map function part state = _ ↔ _
  unfold EStateM.map
  cases hpart : part state with
  | ok earlier between =>
      constructor
      · intro hequal
        cases hequal
        exact ⟨earlier, rfl, rfl⟩
      · rintro ⟨_, hequal, rfl⟩
        cases hequal
        rfl
  | error cause between => simp

/-! ## The law -/

/-- `part` succeeds exactly on the bytes of `format`, and takes them. -/
structure Parses {α : Type} (part : Loader α) (format : Bytes → α → Prop) : Prop where
  complete : ∀ {bytes : Bytes} {value : α}, format bytes value →
    ∀ {state : LoadState} {behind : Bytes}, state.stream.Inside →
      state.stream.rest = bytes ++ behind → bytes.length ≤ state.stream.available →
        ∃ after, part state = .ok value after ∧
          SameContent after.stream (state.stream.skip bytes.length)
  sound : ∀ {state after : LoadState} {value : α}, part state = .ok value after →
    ∃ bytes behind, format bytes value ∧ state.stream.rest = bytes ++ behind ∧
      SameContent after.stream (state.stream.skip bytes.length)

namespace Parses

variable {α β : Type}

/-- The bytes of one part followed by those of the next. -/
theorem bind {first : Loader α} {next : α → Loader β} {format : Bytes → α → Prop}
    {formatNext : α → Bytes → β → Prop} (hfirst : Parses first format)
    (hnext : ∀ value, Parses (next value) (formatNext value)) :
    Parses (first >>= next) fun bytes value =>
      ∃ earlier bytesFirst bytesNext, bytes = bytesFirst ++ bytesNext ∧
        format bytesFirst earlier ∧ formatNext earlier bytesNext value := by
  constructor
  · rintro _ value ⟨earlier, bytesFirst, bytesNext, rfl, hformat, hformatNext⟩ state behind
      hinside hrest havailable
    -- Behind the bytes of the first part stand those of the next, and they are available.
    rw [List.append_assoc] at hrest
    rw [List.length_append] at havailable ⊢
    have havailableFirst : bytesFirst.length ≤ state.stream.available := by omega
    obtain ⟨between, hbetween, sameBetween⟩ :=
      hfirst.complete hformat hinside hrest havailableFirst
    have hinsideBetween : between.stream.Inside :=
      sameBetween.inside_of_skip_available hinside havailableFirst
    have hrestBetween : between.stream.rest = bytesNext ++ behind := by
      rw [sameBetween.rest_eq, rest_skip hrest]
    have havailableBetween : bytesNext.length ≤ between.stream.available := by
      rw [sameBetween.available_eq, available_skip]
      omega
    obtain ⟨after, hafter, sameAfter⟩ :=
      (hnext earlier).complete hformatNext hinsideBetween hrestBetween havailableBetween
    refine ⟨after, by rw [bind_of_ok hbetween, hafter], ?_⟩
    exact (sameAfter.trans (sameBetween.skip _)).trans (sameContent_skip_skip _ _ _)
  · intro state after value hrun
    obtain ⟨earlier, between, hbetween, hafter⟩ := bind_eq_ok_iff.mp hrun
    obtain ⟨bytesFirst, behind, hformat, hrest, sameBetween⟩ := hfirst.sound hbetween
    obtain ⟨bytesNext, behindNext, hformatNext, hrestNext, sameAfter⟩ :=
      (hnext earlier).sound hafter
    have hbehind : behind = bytesNext ++ behindNext := by
      rw [← hrestNext, sameBetween.rest_eq, rest_skip hrest]
    refine ⟨bytesFirst ++ bytesNext, behindNext,
      ⟨earlier, bytesFirst, bytesNext, rfl, hformat, hformatNext⟩, ?_, ?_⟩
    · rw [hrest, hbehind, List.append_assoc]
    · rw [List.length_append]
      exact (sameAfter.trans (sameBetween.skip _)).trans (sameContent_skip_skip _ _ _)

theorem of_iff {part : Loader α} {format other : Bytes → α → Prop} (hpart : Parses part format)
    (hiff : ∀ bytes value, other bytes value ↔ format bytes value) : Parses part other := by
  constructor
  · intro bytes value hformat state behind hinside hrest havailable
    exact hpart.complete ((hiff bytes value).mp hformat) hinside hrest havailable
  · intro state after value hrun
    obtain ⟨bytes, behind, hformat, hrest, same⟩ := hpart.sound hrun
    exact ⟨bytes, behind, (hiff bytes value).mpr hformat, hrest, same⟩

/-- The bytes of the next part alone, if the first one takes none. -/
theorem bind_silent {first : Loader α} {next : α → Loader β} {holds : α → Prop}
    {formatNext : α → Bytes → β → Prop}
    (hfirst : Parses first fun bytes value => bytes = [] ∧ holds value)
    (hnext : ∀ value, Parses (next value) (formatNext value)) :
    Parses (first >>= next) fun bytes value =>
      ∃ earlier, holds earlier ∧ formatNext earlier bytes value := by
  refine (hfirst.bind hnext).of_iff fun bytes value => ?_
  constructor
  · rintro ⟨earlier, hholds, hformatNext⟩
    exact ⟨earlier, [], bytes, rfl, ⟨rfl, hholds⟩, hformatNext⟩
  · rintro ⟨earlier, _, _, rfl, ⟨rfl, hholds⟩, hformatNext⟩
    exact ⟨earlier, hholds, hformatNext⟩

/-- So many bytes of any kind, followed by those of the next part. -/
theorem bind_bytes {first : Loader Bytes} {next : Bytes → Loader β} {count : Nat}
    {formatNext : Bytes → Bytes → β → Prop}
    (hfirst : Parses first fun bytes value => bytes.length = count ∧ value = bytes)
    (hnext : ∀ value, Parses (next value) (formatNext value)) :
    Parses (first >>= next) fun bytes value =>
      ∃ taken behind, bytes = taken ++ behind ∧ taken.length = count ∧
        formatNext taken behind value := by
  refine (hfirst.bind hnext).of_iff fun bytes value => ?_
  constructor
  · rintro ⟨taken, behind, rfl, hlength, hformatNext⟩
    exact ⟨taken, taken, behind, rfl, ⟨hlength, rfl⟩, hformatNext⟩
  · rintro ⟨_, taken, behind, rfl, ⟨hlength, rfl⟩, hformatNext⟩
    exact ⟨_, behind, rfl, hlength, hformatNext⟩

/-- A single byte, followed by those of the next part. -/
theorem bind_byte {first : Loader Bytes} {next : Bytes → Loader β}
    {formatNext : Bytes → Bytes → β → Prop}
    (hfirst : Parses first fun bytes value => bytes.length = 1 ∧ value = bytes)
    (hnext : ∀ value, Parses (next value) (formatNext value)) :
    Parses (first >>= next) fun bytes value =>
      ∃ byte behind, bytes = byte :: behind ∧ formatNext [byte] behind value := by
  refine (hfirst.bind_bytes hnext).of_iff fun bytes value => ?_
  constructor
  · rintro ⟨byte, behind, rfl, hformatNext⟩
    exact ⟨[byte], behind, rfl, rfl, hformatNext⟩
  · rintro ⟨taken, behind, rfl, hlength, hformatNext⟩
    obtain ⟨byte, rfl⟩ := List.length_eq_one_iff.mp hlength
    exact ⟨byte, behind, rfl, hformatNext⟩

/-- A part that leaves the stream alone takes no bytes. -/
theorem of_same_stream {part : Loader α} {holds : α → Prop}
    (hcomplete : ∀ {value}, holds value → ∀ state, ∃ after,
      part state = .ok value after ∧ after.stream = state.stream)
    (hsound : ∀ {state after value}, part state = .ok value after →
      holds value ∧ after.stream = state.stream) :
    Parses part fun bytes value => bytes = [] ∧ holds value := by
  constructor
  · rintro _ value ⟨rfl, hvalue⟩ state behind _ _ _
    obtain ⟨after, hafter, hstream⟩ := hcomplete hvalue state
    exact ⟨after, hafter, hstream ▸ sameContent_skip_zero _⟩
  · intro state after value hrun
    obtain ⟨hvalue, hstream⟩ := hsound hrun
    exact ⟨[], state.stream.rest, ⟨rfl, hvalue⟩, rfl, hstream ▸ sameContent_skip_zero _⟩

theorem «pure» (value : α) : Parses (pure value : Loader α) fun bytes given =>
    bytes = [] ∧ given = value := by
  refine of_same_stream ?_ ?_
  · rintro _ rfl state
    exact ⟨state, rfl, rfl⟩
  · intro state after given hrun
    cases hrun
    exact ⟨rfl, rfl⟩

end Parses

/-! ## Parts that cannot succeed -/

theorem refuse_ne_ok {α : Type} {event : LoadEvent} {cause : LoadError} {state after : LoadState}
    {value : α} : (refuse event cause : Loader α) state ≠ .ok value after := by
  intro hrun
  obtain ⟨_, between, _, hthrow⟩ := bind_eq_ok_iff.mp hrun
  cases hthrow

theorem parses_refuse {α : Type} {event : LoadEvent} {cause : LoadError} :
    Parses (refuse event cause : Loader α) fun _ _ => False :=
  ⟨fun hformat => hformat.elim, fun hrun => absurd hrun refuse_ne_ok⟩

/-! ## Parts that take no bytes -/

theorem parses_tell (event : LoadEvent) :
    Parses (tell event) fun bytes _ => bytes = [] ∧ True := by
  refine Parses.of_same_stream ?_ ?_
  · rintro ⟨⟩ _ state
    exact ⟨_, rfl, rfl⟩
  · intro state after value hrun
    cases hrun
    exact ⟨trivial, rfl⟩

theorem parses_require (holds : Bool) (event : LoadEvent) (cause : LoadError) :
    Parses (require holds event cause) fun bytes _ => bytes = [] ∧ holds = true := by
  unfold require
  split
  · rename_i hholds
    exact (Parses.pure ()).of_iff fun bytes value => by simp [hholds]
  · rename_i hholds
    exact parses_refuse.of_iff fun bytes value => by simp [hholds]

theorem parses_nameOf (bytes : Bytes) :
    Parses (nameOf bytes) fun taken name => taken = [] ∧ bytes = Text.utf8Bytes name := by
  unfold nameOf
  split
  · rename_i name hname
    refine (Parses.pure name).of_iff fun taken other => ?_
    rw [← Text.ofUtf8?_eq_some_iff, hname, Option.some_inj, eq_comm (a := name)]
  · rename_i hname
    refine parses_refuse.of_iff fun taken other => ?_
    rw [← Text.ofUtf8?_eq_some_iff, hname]
    simp

/-! ## Parts that read -/

/-- Filling never fails by itself; it tells how many of the bytes were available. -/
theorem exists_fill_eq (count : Nat) (state : LoadState) :
    ∃ after, fill count state =
        .ok ⟨state.stream.rest.take (min count state.stream.available),
          if count ≤ state.stream.available then none else some state.stream.shortage⟩ after ∧
      SameContent after.stream (state.stream.skip (min count state.stream.available)) := by
  refine ⟨state.move _ (state.stream.bytes_fill count), ?_, sameContent_fill _ _⟩
  rw [← fill_filled]
  rfl

/-- Bytes that are available are taken. -/
theorem take_of_le {count : Nat} {state : LoadState} (otherwise : ReadFailure → Loader Bytes)
    (havailable : count ≤ state.stream.available) :
    ∃ after, take count otherwise state = .ok (state.stream.rest.take count) after ∧
      SameContent after.stream (state.stream.skip count) := by
  obtain ⟨after, hrun, same⟩ := exists_fill_eq count state
  rw [Nat.min_eq_left havailable] at same
  rw [Nat.min_eq_left havailable, if_pos havailable] at hrun
  exact ⟨after, bind_of_ok hrun, same⟩

/-- When too few bytes are available, the part goes on otherwise. -/
theorem take_of_lt {count : Nat} {state : LoadState} (otherwise : ReadFailure → Loader Bytes)
    (hshort : state.stream.available < count) :
    ∃ between, take count otherwise state = otherwise state.stream.shortage between := by
  obtain ⟨between, hrun, _⟩ := exists_fill_eq count state
  rw [if_neg (Nat.not_le.mpr hshort)] at hrun
  exact ⟨between, bind_of_ok hrun⟩

theorem parses_take (count : Nat) {otherwise : ReadFailure → Loader Bytes}
    (hotherwise : ∀ failure state value after, otherwise failure state ≠ .ok value after) :
    Parses (take count otherwise) fun bytes value => bytes.length = count ∧ value = bytes := by
  constructor
  · rintro _ bytes ⟨rfl, rfl⟩ state behind _ hrest havailable
    obtain ⟨after, hafter, same⟩ := take_of_le otherwise havailable
    rw [hrest, List.take_left] at hafter
    exact ⟨after, hafter, same⟩
  · intro state after value hrun
    by_cases havailable : count ≤ state.stream.available
    · obtain ⟨between, hbetween, same⟩ := take_of_le otherwise havailable
      rw [hrun] at hbetween
      cases hbetween
      have hlength : (state.stream.rest.take count).length = count :=
        List.length_take_of_le (Nat.le_trans havailable state.stream.available_le_length)
      refine ⟨state.stream.rest.take count, state.stream.rest.drop count, ⟨hlength, rfl⟩,
        (List.take_append_drop _ _).symm, ?_⟩
      rwa [hlength]
    · obtain ⟨between, hbetween⟩ := take_of_lt otherwise (Nat.not_le.mp havailable)
      rw [hrun] at hbetween
      exact absurd hbetween.symm (hotherwise _ _ _ _)

theorem parses_plain (count : Nat) :
    Parses (plain count) fun bytes value => bytes.length = count ∧ value = bytes :=
  parses_take count fun _ _ _ _ hrun => by cases hrun

theorem parses_record (count : Nat) :
    Parses (record count) fun bytes value => bytes.length = count ∧ value = bytes :=
  parses_take count fun _ _ _ _ hrun => by cases hrun

end Loader
end VectorIcons

import VectorIcons.Proofs.Pack.Parsing
import VectorIcons.Proofs.Pack.Laws

/-!
# What a load logs when it ends

A load logs its progress at the level debug, and at the end

* how many icons the pack has, at the level info, if there is one;
* what is wrong, at the level error, if the load fails for what the bytes say or for a header or
  a size that cannot be read;
* nothing further if a tag or a part of a payload cannot be read, though the load fails.

The last case is a gap: `silent_failure_of_missing_palette` has a pack that ends behind the size of
a palette.

## Strategy

`Reported` says of one run what it adds to the events before it, in one case for each way to end.
It is a law of all parts, `law_reports`, and then holds of all sections by induction on them.
-/

namespace VectorIcons

/-! ## The log -/

/-- The log of a load. -/
def Loading.log (loading : Loading) : List LogEntry := loading.events.map LoadEvent.entry

/-- The log of a load tells how it ended, unless a read fails whose failure is not told. -/
structure Loading.LogsEnd (loading : Loading) : Prop where
  /-- With a pack there is no entry of level error, and the last one counts the icons. -/
  of_ok : ∀ {pack}, loading.result = .ok pack →
    (∀ entry ∈ loading.log, entry.level ≠ .error) ∧
      loading.log.getLast? = some ⟨.info, "Pack loaded: " ++ Nat.repr pack.size ++ " icons"⟩
  /-- Without a pack there is one exactly if the failure is told. -/
  of_error : ∀ {cause}, loading.result = .error cause →
    ((∃ entry ∈ loading.log, entry.level = .error) ↔ cause.isTold = true)
  /-- It is then the last entry. -/
  getLast?_of_error : ∀ {cause}, loading.result = .error cause → cause.isTold = true →
    ∃ message, loading.log.getLast? = some ⟨.error, message⟩

namespace Loader

/-! ## The law -/

/-- Between two states only events of level debug are told. -/
def OnlyProgress (before after : LoadState) : Prop :=
  ∃ progress : List LoadEvent, after.events.toList = before.events.toList ++ progress ∧
    ∀ event ∈ progress, event.level = .debug

theorem OnlyProgress.refl (state : LoadState) : OnlyProgress state state :=
  ⟨[], (List.append_nil _).symm, List.forall_mem_nil _⟩

theorem OnlyProgress.trans {first second third : LoadState} (hfirst : OnlyProgress first second)
    (hsecond : OnlyProgress second third) : OnlyProgress first third := by
  obtain ⟨earlier, hearlier, hearlierLevel⟩ := hfirst
  obtain ⟨later, hlater, hlaterLevel⟩ := hsecond
  refine ⟨earlier ++ later, ?_, List.forall_mem_append.mpr ⟨hearlierLevel, hlaterLevel⟩⟩
  rw [hlater, hearlier, List.append_assoc]

/-- What a run adds to the events that were told before it. -/
inductive Reported {α : Type} (before : LoadState) :
    EStateM.Result LoadError LoadState α → Prop
  | ok {value : α} {after : LoadState} (hprogress : OnlyProgress before after) :
      Reported before (.ok value after)
  | told {cause : LoadError} {between after : LoadState} {event : LoadEvent}
      (hprogress : OnlyProgress before between) (hevents : after.events = between.events.push event)
      (hlevel : event.level = .error) (hcause : cause.isTold = true) :
      Reported before (.error cause after)
  | untold {cause : LoadError} {after : LoadState} (hprogress : OnlyProgress before after)
      (hcause : cause.isTold = false) :
      Reported before (.error cause after)

/-- Whether a part of a load adds only progress, and an error if it fails and tells why. -/
def Reports {α : Type} (part : Loader α) : Prop := ∀ state, Reported state (part state)

theorem Reported.of_progress {α : Type} {first second : LoadState}
    {result : EStateM.Result LoadError LoadState α} (hprogress : OnlyProgress first second)
    (hreported : Reported second result) : Reported first result := by
  cases hreported with
  | ok hlater => exact .ok (hprogress.trans hlater)
  | told hlater hevents hlevel hcause =>
      exact .told (hprogress.trans hlater) hevents hlevel hcause
  | untold hlater hcause => exact .untold (hprogress.trans hlater) hcause

/-- Behind a run that adds only progress, the next part tells how both end. -/
theorem Reported.bind {α β : Type} {part : Loader α} {next : α → Loader β} {state : LoadState}
    (hpart : Reported state (part state))
    (hnext : ∀ value between, part state = .ok value between →
      Reported between (next value between)) :
    Reported state ((part >>= next) state) := by
  show Reported state (EStateM.bind part next state)
  unfold EStateM.bind
  revert hpart hnext
  generalize part state = result
  intro hpart hnext
  cases hpart with
  | ok hprogress => exact .of_progress hprogress (hnext _ _ rfl)
  | told hprogress hevents hlevel hcause => exact .told hprogress hevents hlevel hcause
  | untold hprogress hcause => exact .untold hprogress hcause

theorem onlyProgress_tell {state : LoadState} {event : LoadEvent} (hlevel : event.level = .debug) :
    OnlyProgress state { state with events := state.events.push event } :=
  ⟨[event], Array.toList_push, List.forall_mem_singleton.mpr hlevel⟩

theorem law_reports : Law @Reports where
  «pure» _ state := .ok (.refl state)
  bind hpart hnext state := (hpart state).bind fun value between _ => hnext value between
  tell hlevel _ := .ok (onlyProgress_tell hlevel)
  refuse hlevel hcause state := .told (.refl state) rfl hlevel hcause
  throw hcause state := .untold (.refl state) hcause
  fill _ state := .ok (.refl state)
  passOver count state := by
    unfold passOver
    split
    · exact .ok (.refl state)
    · exact .ok (.refl state)

/-! ## Whole loads -/

theorem reports_sections : Reports sections := by
  intro state
  induction state using sections_induction with
  | step state ih =>
      rw [sections_eq]
      apply (law_reports.section? state).bind
      intro found between hfound
      cases found with
      | none => exact .ok (.refl between)
      | some found =>
          show Reported between (((found :: ·) <$> sections) between)
          rw [← bind_pure_comp]
          apply (ih found between hfound).bind
          intro others after _
          exact .ok (.refl after)

/-- Before the pack is made, a load has read its header and its sections. -/
theorem pack_eq : pack = (header >>= fun _ => sections) >>= fun found =>
    tell (.loaded (Pack.ofSections found).size) >>= fun _ => pure (Pack.ofSections found) :=
  (bind_assoc _ _ _).symm

theorem reports_reading : Reports (header >>= fun _ => sections) := by
  intro state
  exact (law_reports.header state).bind fun _ between _ => reports_sections between

end Loader

open Loader

/-- The ways in which a load ends, with what it told before. -/
inductive Loading.Ends : Loading → Prop
  | loaded {progress : List LoadEvent} {pack : Pack}
      (hprogress : ∀ event ∈ progress, event.level = .debug) :
      Ends ⟨.ok pack, progress ++ [.loaded pack.size]⟩
  | told {progress : List LoadEvent} {event : LoadEvent} {cause : LoadError}
      (hprogress : ∀ event ∈ progress, event.level = .debug) (hlevel : event.level = .error)
      (hcause : cause.isTold = true) :
      Ends ⟨.error cause, progress ++ [event]⟩
  | untold {progress : List LoadEvent} {cause : LoadError}
      (hprogress : ∀ event ∈ progress, event.level = .debug) (hcause : cause.isTold = false) :
      Ends ⟨.error cause, progress⟩

theorem ends_load (stream : ByteStream) : (Pack.load stream).Ends := by
  -- A load can fail only while it reads.  The pack is made, and counted, behind that.
  have hreads := reports_reading (.start stream)
  unfold Pack.load
  rw [pack_eq]
  revert hreads
  cases hrun : (header >>= fun _ => sections) (.start stream) with
  | ok found between =>
      rw [bind_of_ok hrun]
      rintro ⟨progress, hevents, hprogress⟩
      show Loading.Ends ⟨.ok _, (between.events.push (.loaded _)).toList⟩
      rw [Array.toList_push, hevents]
      exact .loaded hprogress
  | error cause after =>
      rw [bind_of_error hrun]
      intro hreads
      show Loading.Ends ⟨.error cause, after.events.toList⟩
      cases hreads with
      | told hprogress hevents hlevel hcause =>
          obtain ⟨progress, hbetween, hprogress⟩ := hprogress
          rw [hevents, Array.toList_push, hbetween]
          exact .told hprogress hlevel hcause
      | untold hprogress hcause =>
          obtain ⟨progress, hafter, hprogress⟩ := hprogress
          rw [hafter]
          exact .untold hprogress hcause

/-- No entry of progress is an error. -/
theorem level_ne_error_of_progress {progress : List LoadEvent}
    (hprogress : ∀ event ∈ progress, event.level = .debug) :
    ∀ entry ∈ progress.map LoadEvent.entry, entry.level ≠ .error := by
  rw [List.forall_mem_map]
  intro event hevent
  show event.level ≠ .error
  rw [hprogress event hevent]
  decide

theorem log_append_singleton (result : Except LoadError Pack) (progress : List LoadEvent)
    (event : LoadEvent) : Loading.log ⟨result, progress ++ [event]⟩ =
      progress.map LoadEvent.entry ++ [event.entry] := by
  rw [Loading.log, List.map_append, List.map_singleton]

theorem Loading.Ends.logsEnd {loading : Loading} (hends : loading.Ends) : loading.LogsEnd := by
  cases hends with
  | loaded hprogress =>
      constructor
      case of_ok =>
        intro pack hpack
        cases hpack
        rw [log_append_singleton, List.getLast?_concat]
        refine ⟨List.forall_mem_append.mpr ⟨level_ne_error_of_progress hprogress, ?_⟩, rfl⟩
        exact List.forall_mem_singleton.mpr (show LogLevel.info ≠ .error by decide)
      case of_error =>
        intro cause hcause
        cases hcause
      case getLast?_of_error =>
        intro cause hcause
        cases hcause
  | told hprogress hlevel hcause =>
      constructor
      case of_ok =>
        intro pack hpack
        cases hpack
      case of_error =>
        rintro _ ⟨⟩
        rw [log_append_singleton]
        exact iff_of_true ⟨_, List.mem_append_right _ (List.mem_singleton_self _), hlevel⟩ hcause
      case getLast?_of_error =>
        intro _ _ _
        rw [log_append_singleton, List.getLast?_concat, LoadEvent.entry, hlevel]
        exact ⟨_, rfl⟩
  | untold hprogress hcause =>
      constructor
      case of_ok =>
        intro pack hpack
        cases hpack
      case of_error =>
        rintro _ ⟨⟩
        apply iff_of_false
        · rintro ⟨entry, hentry, hlevel⟩
          exact level_ne_error_of_progress hprogress entry hentry hlevel
        · rw [hcause]
          decide
      case getLast?_of_error =>
        rintro _ ⟨⟩ htold
        rw [hcause] at htold
        cases htold

/-- **The log of each load tells how it ended, but for reads of tags and payloads that fail.** -/
theorem logsEnd_load (stream : ByteStream) : (Pack.load stream).LogsEnd :=
  (ends_load stream).logsEnd

/-- A palette of which nothing is there but tag and size: its load fails, and the log does not
say so. -/
theorem silent_failure_of_missing_palette :
    (Pack.ofBytes [0x69, 0x63, 0x70, 0x6b, 0, 0, 0, 0, 0x50, 0x41, 0x4c, 0x54, 2, 0, 0, 0]).result =
        .error (.record .endOfStream) ∧
      ¬ ∃ entry ∈ (Pack.ofBytes
          [0x69, 0x63, 0x70, 0x6b, 0, 0, 0, 0, 0x50, 0x41, 0x4c, 0x54, 2, 0, 0, 0]).log,
        entry.level = .error := by
  refine ⟨?_, by decide +kernel⟩
  -- Packs cannot be compared, so only the failure is evaluated.
  have hfails : (match (Pack.ofBytes [0x69, 0x63, 0x70, 0x6b, 0, 0, 0, 0, 0x50, 0x41, 0x4c, 0x54,
      2, 0, 0, 0]).result with
    | .ok _ => none
    | .error cause => some cause) = some (.record .endOfStream) := by decide +kernel
  split at hfails
  · cases hfails
  · rename_i hresult
    rw [hresult, Option.some.inj hfails]

end VectorIcons

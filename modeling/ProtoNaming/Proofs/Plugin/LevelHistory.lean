import ProtoNaming.Proofs.Plugin.Independence

namespace ProtoNaming

open Wire

namespace LogLevel

/-- Whether an entry is let through at a level: log, trace and debug never are. -/
def Shows (level : LogLevel) (e : LogEntry) : Prop :=
  (e.title = .info ∨ e.title = .warn ∨ e.title = .error) ∧ all.idxOf level ≤ all.idxOf e.title

instance (level : LogLevel) (e : LogEntry) : Decidable (level.Shows e) :=
  inferInstanceAs (Decidable (_ ∧ _))

theorem prints_eq_shows (level : LogLevel) (e : LogEntry) :
    level.prints e.title = decide (level.Shows e) := by
  obtain ⟨title, message⟩ := e
  unfold Shows
  cases level <;> cases title <;> rfl

def unknown (name : String) : LogEntry := ⟨.warn, "Ignoring unknown log level " ++ name⟩

theorem change_name (level l : LogLevel) : level.change l.name = (l, []) := by
  rw [change, ofName?_eq_some_iff.mpr rfl]

theorem change_of_unknown {name : String} (h : ∀ l : LogLevel, l.name ≠ name) (level : LogLevel) :
    level.change name = (level, level.printed [unknown name]) := by
  have hnone : ofName? name = none := by
    cases hl : ofName? name with
    | none => rfl
    | some l => exact absurd (ofName?_eq_some_iff.mp hl) (h l)
  rw [change, hnone, unknown]

theorem printed_append (level : LogLevel) (es es' : List LogEntry) :
    level.printed (es ++ es') = level.printed es ++ level.printed es' :=
  List.filter_append es es'

end LogLevel

namespace Plugin

/-- One use of the log: a level asked for by its name, or an entry. -/
inductive LogUse where
  | level (name : String)
  | entry (e : LogEntry)

/-- The entries told one after another, each with the level in force when it is told. -/
def told (level : LogLevel) : List LogUse → List (LogLevel × LogEntry)
  | [] => []
  | .level name :: uses =>
    match LogLevel.ofName? name with
    | some l => told l uses
    | none => (level, LogLevel.unknown name) :: told level uses
  | .entry e :: uses => (level, e) :: told level uses

def shown (entries : List (LogLevel × LogEntry)) : List LogEntry :=
  (entries.filter fun m => m.1.Shows m.2).map (·.2)

def askedLevel (options : Options) : Option String := options.logLevel.filter (· ≠ "")

def failed (e : RunError) : LogEntry := ⟨.error, "Plugin error: " ++ e.message⟩

/-- The entries of a run whose parameter has been accepted, but for those below `info`, which no
level lets through. -/
def entriesOf (request : Request) (options : Options) : List LogEntry :=
  let requested := request.filesToGenerate.eraseDups
  let progress := generate options.targets requested request.files
  ⟨.info, "Processing " ++ toString request.files.length ++ " proto file(s), generating for "
      ++ toString requested.length⟩ ::
    progress.entries ++
    match progress.files with
    | .error e => [failed (.naming e)]
    | .ok _ => []

/-- How a request that has been read uses the log: it asks for the level of its parameter, if any,
before it tells anything. -/
def usesOf (request : Request) : List LogUse :=
  match Options.parse (request.parameter.getD "") with
  | .error e => [.entry (failed (.naming e))]
  | .ok options =>
    (askedLevel options).toList.map .level ++ (entriesOf request options).map .entry

namespace Step

def uses : Step → List LogUse
  | .setLevel name => [.level name]
  | .log title message => [.entry ⟨title, message⟩]
  | .options _ => []
  | .run bytes =>
    match Request.decode bytes with
    | .error e => [.entry (failed (.request e))]
    | .ok request => usesOf request

/-- A step asks for a level. Of a run the bytes have to be read and the parameter accepted for
that, and an empty name asks for none. -/
inductive Asks : Step → String → Prop where
  | setLevel (name : String) : Asks (.setLevel name) name
  | run {bytes : List UInt8} {request : Request} {options : Options} {name : String} :
      Request.decode bytes = .ok request →
      Options.parse (request.parameter.getD "") = .ok options →
      options.logLevel = some name → name ≠ "" → Asks (.run bytes) name

def Sets (s : Step) (l : LogLevel) : Prop := s.Asks l.name

theorem eq_of_asks_setLevel {name name' : String} (h : (setLevel name).Asks name') :
    name' = name := by
  cases h
  rfl

end Step

section

variable (level : LogLevel)

theorem shown_cons (e : LogEntry) (ms : List (LogLevel × LogEntry)) :
    shown ((level, e) :: ms) = level.printed [e] ++ shown ms := by
  rw [shown, List.filter_cons, LogLevel.printed, List.filter_singleton, level.prints_eq_shows]
  by_cases h : level.Shows e <;> simp [h, shown]

theorem shown_told_entries (es : List LogEntry) :
    shown (told level (es.map .entry)) = level.printed es := by
  induction es with
  | nil => rfl
  | cons e es ih =>
    rw [List.map_cons, told, shown_cons, ih, ← LogLevel.printed_append, List.singleton_append]

theorem shown_told_level (name : String) (uses : List LogUse) :
    shown (told level (.level name :: uses)) =
      (level.change name).2 ++ shown (told (level.change name).1 uses) := by
  rw [told, LogLevel.change]
  cases LogLevel.ofName? name with
  | some l => rfl
  | none => exact shown_cons level (LogLevel.unknown name) (told level uses)

theorem askedLevel_eq_some_iff {options : Options} {name : String} :
    askedLevel options = some name ↔ options.logLevel = some name ∧ name ≠ "" := by
  simp [askedLevel, Option.filter_eq_some_iff]

theorem applyLevel_eq (options : Options) :
    applyLevel level options = (askedLevel options).elim (level, []) level.change := by
  unfold applyLevel
  split
  · next h => rw [askedLevel, h]; rfl
  · next h => rw [askedLevel, h]; rfl
  · next name hne h => rw [askedLevel_eq_some_iff.mpr ⟨h, hne⟩]; rfl

theorem level_respond {request : Request} {options : Options}
    (hp : Options.parse (request.parameter.getD "") = .ok options) :
    (respond level request).level = (applyLevel level options).1 := by
  rw [respond, hp]
  simp only
  split <;> rfl

theorem entries_respond_of_parse {request : Request} {options : Options}
    (hp : Options.parse (request.parameter.getD "") = .ok options) :
    (respond level request).entries =
      (applyLevel level options).2 ++
        (applyLevel level options).1.printed (entriesOf request options) := by
  rw [respond, hp]
  simp only [entriesOf]
  cases (generate options.targets request.filesToGenerate.eraseDups request.files).files with
  | error e =>
    simp only [Outcome.fail, List.append_assoc, ← LogLevel.printed_append]
    rfl
  | ok files => simp only [List.append_nil]

theorem entries_respond (request : Request) :
    (respond level request).entries = shown (told level (usesOf request)) := by
  cases hp : Options.parse (request.parameter.getD "") with
  | error e =>
    rw [respond, usesOf, hp]
    exact (shown_told_entries level [failed (.naming e)]).symm
  | ok options =>
    have htold (l : LogLevel) : shown (told l ((entriesOf request options).map .entry)) =
        l.printed (entriesOf request options) := shown_told_entries l _
    rw [entries_respond_of_parse level hp, usesOf, hp, applyLevel_eq]
    simp only
    cases askedLevel options with
    | none => exact (htold level).symm
    | some name =>
      refine Eq.symm ((shown_told_level level name _).trans ?_)
      exact congrArg ((level.change name).2 ++ ·) (htold (level.change name).1)

theorem entries_step (s : Step) : (step level s).2.entries = shown (told level s.uses) := by
  cases s with
  | setLevel name =>
    refine Eq.trans ?_ (shown_told_level level name []).symm
    exact (List.append_nil _).symm
  | log title message => exact (shown_told_entries level [⟨title, message⟩]).symm
  | options parameter => rfl
  | run bytes =>
    rw [Step.uses]
    cases hd : Request.decode bytes with
    | error e =>
      have hrun : (step level (.run bytes)).2.entries = level.printed [failed (.request e)] := by
        rw [step, run_of_decode_error level hd]
        rfl
      exact hrun.trans (shown_told_entries level [failed (.request e)]).symm
    | ok request =>
      rw [step, run_of_decode level hd]
      exact entries_respond level request

theorem level_step_of_asks {s : Step} {name : String} (h : s.Asks name) :
    (step level s).1 = (level.change name).1 := by
  cases h with
  | setLevel name => rfl
  | run hd hp hl hn =>
    rw [step, run_of_decode level hd]
    refine (level_respond level hp).trans ?_
    rw [applyLevel_eq, askedLevel_eq_some_iff.mpr ⟨hl, hn⟩]
    rfl

theorem level_step_of_not_asks {s : Step} (h : ∀ name, ¬s.Asks name) :
    (step level s).1 = level := by
  cases s with
  | setLevel name => exact absurd (.setLevel name) (h name)
  | log title message => rfl
  | options parameter => rfl
  | run bytes =>
    rw [step]
    cases hd : Request.decode bytes with
    | error e =>
      rw [run_of_decode_error level hd]
      rfl
    | ok request =>
      rw [run_of_decode level hd]
      cases hp : Options.parse (request.parameter.getD "") with
      | error e =>
        rw [respond, hp]
        rfl
      | ok options =>
        refine (level_respond level hp).trans ?_
        rw [applyLevel_eq]
        cases ha : askedLevel options with
        | none => rfl
        | some name =>
          obtain ⟨hl, hn⟩ := askedLevel_eq_some_iff.mp ha
          exact absurd (.run hd hp hl hn) (h name)

theorem level_step_of_sets {s : Step} {l : LogLevel} (h : s.Sets l) : (step level s).1 = l := by
  rw [level_step_of_asks level h, LogLevel.change_name]

theorem level_step_of_not_sets {s : Step} (h : ∀ l, ¬s.Sets l) : (step level s).1 = level := by
  by_cases ha : ∃ name, s.Asks name
  · obtain ⟨name, ha⟩ := ha
    have hunknown (l : LogLevel) : l.name ≠ name := by
      rintro rfl
      exact h l ha
    rw [level_step_of_asks level ha, LogLevel.change_of_unknown hunknown]
  · exact level_step_of_not_asks level fun name hn => ha ⟨name, hn⟩

theorem levelAfter_of_not_sets {steps : List Step} (h : ∀ s ∈ steps, ∀ l, ¬s.Sets l) :
    levelAfter level steps = level := by
  induction steps generalizing level with
  | nil => rfl
  | cons s steps ih =>
    obtain ⟨hs, hsteps⟩ := List.forall_mem_cons.mp h
    have hlevel := level_step_of_not_sets level hs
    rw [levelAfter, List.foldl_cons, hlevel]
    exact ih level hsteps

theorem levelAfter_append (before after : List Step) :
    levelAfter level (before ++ after) = levelAfter (levelAfter level before) after :=
  List.foldl_append

theorem levelAfter_of_last_set (earlier : List Step) {later : List Step} {s : Step} {l : LogLevel}
    (h : s.Sets l) (hlater : ∀ t ∈ later, ∀ l', ¬t.Sets l') :
    levelAfter level (earlier ++ s :: later) = l := by
  rw [levelAfter_append, levelAfter, List.foldl_cons, level_step_of_sets _ h]
  exact levelAfter_of_not_sets l hlater

theorem length_replies (steps : List Step) : (replies level steps).length = steps.length := by
  induction steps generalizing level with
  | nil => rfl
  | cons s steps ih => rw [replies, List.length_cons, ih, List.length_cons]

theorem getElem?_replies (before after : List Step) (s : Step) :
    (replies level (before ++ s :: after))[before.length]? =
      some (step (levelAfter level before) s).2 := by
  have hlength := length_replies level before
  rw [replies_append, ← hlength, List.getElem?_append_right (Nat.le_refl _), Nat.sub_self, replies]
  rfl

end

theorem title_of_mem_generate {targets : List Target} {requested : List String}
    {ds : List FileDescriptor} {e : LogEntry} (h : e ∈ (generate targets requested ds).entries) :
    e.title = .info := by
  induction ds with
  | nil => cases h
  | cons d ds ih =>
    rw [generate] at h
    split at h
    · split at h
      · rw [List.mem_singleton.mp h]
      · rcases List.mem_cons.mp h with rfl | h
        · rfl
        · rcases List.mem_cons.mp h with rfl | h
          · rfl
          · exact ih h
      · rcases List.mem_cons.mp h with rfl | h
        · rfl
        · rcases List.mem_cons.mp h with rfl | h
          · rfl
          · exact ih h
    · exact ih h

theorem title_of_mem_entriesOf {request : Request} {options : Options} {e : LogEntry}
    (h : e ∈ entriesOf request options) : e.title ≠ .warn := by
  simp only [entriesOf] at h
  rcases List.mem_append.mp h with h | h
  · rcases List.mem_cons.mp h with rfl | h
    · exact (nomatch ·)
    · rw [title_of_mem_generate h]
      exact (nomatch ·)
  · split at h
    · rw [List.mem_singleton.mp h]
      exact (nomatch ·)
    · cases h

theorem usesOf_of_parse {request : Request} {options : Options}
    (hp : Options.parse (request.parameter.getD "") = .ok options) :
    usesOf request =
      (askedLevel options).toList.map .level ++ (entriesOf request options).map .entry := by
  rw [usesOf, hp]

/-- A step that asks for a level does so first, and tells no warning of its own after it. -/
theorem uses_of_asks {s : Step} {name : String} (h : s.Asks name) :
    ∃ es : List LogEntry, (∀ e ∈ es, e.title ≠ .warn) ∧
      s.uses = .level name :: es.map .entry := by
  cases h with
  | setLevel name => exact ⟨[], List.forall_mem_nil _, rfl⟩
  | @run bytes request options name hd hp hl hn =>
    refine ⟨entriesOf request options, fun _ => title_of_mem_entriesOf, ?_⟩
    have huses : (Step.run bytes).uses = usesOf request := by simp only [Step.uses, hd]
    rw [huses, usesOf_of_parse hp, askedLevel_eq_some_iff.mpr ⟨hl, hn⟩]
    rfl

theorem uses_run_of_not_asks {bytes : List UInt8} (h : ∀ name, ¬(Step.run bytes).Asks name) :
    ∃ es : List LogEntry, (∀ e ∈ es, e.title ≠ .warn) ∧ (Step.run bytes).uses = es.map .entry := by
  have hfailed (e : RunError) : ∀ e' ∈ [failed e], e'.title ≠ .warn := by
    intro e' he
    rw [List.mem_singleton.mp he]
    exact (nomatch ·)
  simp only [Step.uses]
  cases hd : Request.decode bytes with
  | error e => exact ⟨[failed (.request e)], hfailed (.request e), rfl⟩
  | ok request =>
    cases hp : Options.parse (request.parameter.getD "") with
    | error e =>
      refine ⟨[failed (.naming e)], hfailed (.naming e), ?_⟩
      simp only [usesOf, hp]
      rfl
    | ok options =>
      refine ⟨entriesOf request options, fun _ => title_of_mem_entriesOf, ?_⟩
      have hnone : askedLevel options = none := by
        refine Option.eq_none_iff_forall_ne_some.mpr fun name ha => ?_
        obtain ⟨hl, hn⟩ := askedLevel_eq_some_iff.mp ha
        exact h name (.run hd hp hl hn)
      simp only [usesOf_of_parse hp, hnone]
      rfl

section

variable (level : LogLevel)

theorem warnings_printed {es : List LogEntry} (h : ∀ e ∈ es, e.title ≠ .warn) :
    (level.printed es).filter (·.title = .warn) = [] := by
  rw [LogLevel.printed, List.filter_filter, List.filter_eq_nil_iff]
  intro e he
  simp [h e he]

/-- About a level that there is not a step tells once, at the level that it leaves in force. -/
theorem warnings_step_of_unknown {s : Step} {name : String} (h : s.Asks name)
    (hu : ∀ l : LogLevel, l.name ≠ name) :
    (step level s).2.entries.filter (·.title = .warn) =
      if level.Shows (LogLevel.unknown name) then [LogLevel.unknown name] else [] := by
  obtain ⟨es, hes, huses⟩ := uses_of_asks h
  have hself : (level.printed [LogLevel.unknown name]).filter (·.title = .warn) =
      level.printed [LogLevel.unknown name] := by
    rw [List.filter_eq_self]
    intro e he
    rw [List.mem_singleton.mp (List.mem_of_mem_filter he)]
    rfl
  rw [entries_step, huses, shown_told_level, LogLevel.change_of_unknown hu, shown_told_entries,
    List.filter_append, warnings_printed level hes, List.append_nil, hself, LogLevel.printed,
    List.filter_singleton, LogLevel.prints_eq_shows]
  simp

theorem warnings_run {bytes : List UInt8}
    (h : ∀ name, (Step.run bytes).Asks name → ∃ l : LogLevel, l.name = name) :
    (step level (.run bytes)).2.entries.filter (·.title = .warn) = [] := by
  rw [entries_step]
  by_cases ha : ∃ name, (Step.run bytes).Asks name
  · obtain ⟨name, ha⟩ := ha
    obtain ⟨l, rfl⟩ := h name ha
    obtain ⟨es, hes, huses⟩ := uses_of_asks ha
    rw [huses, shown_told_level, LogLevel.change_name, shown_told_entries]
    exact warnings_printed l hes
  · obtain ⟨es, hes, huses⟩ := uses_run_of_not_asks fun name hn => ha ⟨name, hn⟩
    rw [huses, shown_told_entries]
    exact warnings_printed level hes

end

/-- In a process the level in force before a step is the last one set, or the first one of all
where none was. A step prints what it tells at a level that lets it through, in order, and one
warning about a level that there is not. -/
theorem replies_at_last_level_set (before after : List Step) (s : Step) :
    let level := levelAfter initialLevel before
    let reply := (step level s).2
    (replies initialLevel (before ++ s :: after))[before.length]? = some reply ∧
    ((∀ t ∈ before, ∀ l, ¬t.Sets l) → level = .info) ∧
    (∀ earlier t later l, before = earlier ++ t :: later → t.Sets l →
      (∀ u ∈ later, ∀ l', ¬u.Sets l') → level = l) ∧
    reply.entries = shown (told level s.uses) ∧
    (∀ name, s.Asks name → (∀ l : LogLevel, l.name ≠ name) →
      reply.entries.filter (·.title = .warn) =
        if level.Shows (LogLevel.unknown name) then [LogLevel.unknown name] else []) ∧
    ∀ bytes, s = .run bytes → (∀ name, s.Asks name → ∃ l : LogLevel, l.name = name) →
      reply.entries.filter (·.title = .warn) = [] := by
  intro level reply
  refine ⟨getElem?_replies initialLevel before after s, levelAfter_of_not_sets initialLevel, ?_,
    entries_step level s, fun name => warnings_step_of_unknown level, ?_⟩
  · rintro earlier t later l hbefore ht hlater
    have hlast := levelAfter_of_last_set initialLevel earlier ht hlater
    rwa [← hbefore] at hlast
  · rintro bytes rfl h
    exact warnings_run level h

/-- A request for errors only, which fails on a field. -/
def quietFailure : List UInt8 := (requestFor ["bad.proto"] [unsupportedFile]).encode

theorem replies_at_last_level_set_quietFailure :
    let warnings := fun reply : Reply => reply.entries.filter (·.title = .warn)
    (Step.run quietFailure).Sets .error ∧ (∀ l : LogLevel, l.name ≠ "loud") ∧
      (replies initialLevel [.run quietFailure, .setLevel "loud"])[1]?.map Reply.entries =
        some [] ∧
      (replies initialLevel [.setLevel "loud", .run quietFailure])[0]?.map warnings =
        some [LogLevel.unknown "loud"] ∧
      (replies initialLevel [.setLevel "loud", .run quietFailure])[1]?.map warnings =
        some [] := by
  intro warnings
  have hd : Request.decode quietFailure = .ok (requestFor ["bad.proto"] [unsupportedFile]) :=
    decode_requestFor (by decide +kernel)
  have hp : Options.parse "log_level=error" = .ok ⟨some "error", Target.all⟩ := by decide +kernel
  have hs : (Step.run quietFailure).Sets .error := .run hd hp rfl (by decide)
  have hu : ∀ l : LogLevel, l.name ≠ "loud" := by
    intro l
    cases l <;> decide
  have hask : (Step.setLevel "loud").Asks "loud" := .setLevel "loud"
  have hnot : ∀ t ∈ [Step.setLevel "loud"], ∀ l, ¬t.Sets l := by
    intro t ht l hl
    rw [List.mem_singleton.mp ht] at hl
    exact hu l (Step.eq_of_asks_setLevel hl)
  have hknown : ∀ name, (Step.run quietFailure).Asks name → ∃ l : LogLevel, l.name = name := by
    rintro name (_ | ⟨hd', hp', hl, _⟩)
    cases hd.symm.trans hd'
    cases hp.symm.trans hp'
    exact ⟨.error, Option.some.inj hl⟩
  obtain ⟨hquiet, _, hlast, hentries, _, _⟩ :=
    replies_at_last_level_set [.run quietFailure] [] (.setLevel "loud")
  obtain ⟨hloud, hfirst, _, _, hwarned, _⟩ :=
    replies_at_last_level_set [] [.run quietFailure] (.setLevel "loud")
  obtain ⟨hrun, hstill, _, _, _, hnone⟩ :=
    replies_at_last_level_set [.setLevel "loud"] [] (.run quietFailure)
  have herror := hlast [] (.run quietFailure) [] .error rfl hs (List.forall_mem_nil _)
  have hinfo := hfirst (List.forall_mem_nil _)
  have hinfo' := hstill hnot
  refine ⟨hs, hu, ?_, ?_, ?_⟩
  · rw [herror] at hquiet hentries
    exact (congrArg (Option.map Reply.entries) hquiet).trans (congrArg some hentries)
  · have hone := hwarned "loud" hask hu
    rw [hinfo] at hloud hone
    exact (congrArg (Option.map warnings) hloud).trans (congrArg some hone)
  · have hno := hnone quietFailure rfl hknown
    rw [hinfo'] at hrun hno
    exact (congrArg (Option.map warnings) hrun).trans (congrArg some hno)

end Plugin

end ProtoNaming

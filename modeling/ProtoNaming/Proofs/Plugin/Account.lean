import ProtoNaming.Proofs.Manifest.Reading
import ProtoNaming.Proofs.Plugin.LevelHistory
import ProtoNaming.Proofs.Plugin.OutputNames
import ProtoNaming.Proofs.Plugin.ResponseRoundTrip

namespace ProtoNaming

open Wire

namespace LogLevel

theorem printed_error (level : LogLevel) (message : String) :
    level.printed [⟨error, message⟩] = [⟨error, message⟩] := by
  cases level <;> rfl

theorem printed_of_infos {level : LogLevel} (hp : level.prints info = true) {es : List LogEntry}
    (h : ∀ e ∈ es, e.title = info) : level.printed es = es := by
  apply List.filter_eq_self.mpr
  intro e he
  rw [h e he, hp]

end LogLevel

namespace Plugin

/-- A requested file with what has been made of it. -/
structure Account where
  source : FileDescriptor
  product : Option Product

namespace Account

def entries (a : Account) : List LogEntry :=
  let name := a.source.name.getD ""
  [⟨.info, "Resolving symbols for " ++ name⟩,
    match a.product with
    | none => ⟨.info, "No declarations in " ++ name ++ ", skipping"⟩
    | some p => ⟨.info, "Generated " ++ p.file.name ++ " (" ++ toString p.typeCount ++ " types)"⟩]

/-- A file is skipped if it declares nothing, and else its content can be read as a manifest with so
many types as are told. -/
def IsTrue (a : Account) : Prop :=
  match a.product with
  | none => a.source.messages = [] ∧ a.source.enums = [] ∧ a.source.extensions = []
  | some p =>
    ¬(a.source.messages = [] ∧ a.source.enums = [] ∧ a.source.extensions = []) ∧
      ∃ v m, Json.IsText v p.file.content.toList ∧ Manifest.ofValue? v = some m ∧
        m.types.length = p.typeCount

end Account

theorem declaresAny_eq_false_iff {d : FileDescriptor} :
    d.declaresAny = false ↔ d.messages = [] ∧ d.enums = [] ∧ d.extensions = [] := by
  simp [FileDescriptor.declaresAny, and_assoc]

section

variable {targets : List Target} {requested : List String} {ds : List FileDescriptor}

theorem isTrue_of_product {d : FileDescriptor} {p : Option Product}
    (h : product targets d = .ok p) : Account.IsTrue ⟨d, p⟩ := by
  obtain ⟨file, hb, h⟩ := bind_eq_ok_iff.mp h
  obtain ⟨rfl, _⟩ := d.eq_of_build hb
  rw [d.hasDeclarations_toFile] at h
  split at h
  · next hd =>
    obtain ⟨m, _, h⟩ := bind_eq_ok_iff.mp h
    cases Except.ok.inj h
    refine ⟨fun hnone => ?_, m.toJson.value, m, m.isText_render, m.ofValue?_toJson, rfl⟩
    rw [declaresAny_eq_false_iff.mpr hnone] at hd
    cases hd
  · next hd =>
    cases Except.ok.inj h
    exact declaresAny_eq_false_iff.mp (Bool.eq_false_iff.mpr hd)

theorem generate_of_ok {d : FileDescriptor} {p : Option Product}
    (hn : d.name.getD "" ∈ requested) (hp : product targets d = .ok p) :
    generate targets requested (d :: ds) =
      ⟨Account.entries ⟨d, p⟩ ++ (generate targets requested ds).entries,
        (generate targets requested ds).files.map (p.toList.map Product.file ++ ·)⟩ := by
  rw [generate, if_pos hn, hp]
  cases p with
  | none =>
    have hsame (files : Except NamingError (List OutputFile)) :
        files = files.map fun later => [] ++ later := by
      cases files <;> rfl
    exact congrArg (Progress.mk _) (hsame _)
  | some p => rfl

theorem generate_of_not_mem {d : FileDescriptor} (hn : d.name.getD "" ∉ requested) :
    generate targets requested (d :: ds) = generate targets requested ds := by
  rw [generate, if_neg hn]

/-- The accounts of the files gone through, one for each that is requested. -/
structure AccountsFor (requested : List String) (ds : List FileDescriptor)
    (entries : List LogEntry) (files : List OutputFile) (accounts : List Account) : Prop where
  sources : accounts.map Account.source = ds.filter fun d => d.name.getD "" ∈ requested
  isTrue : ∀ a ∈ accounts, a.IsTrue
  entries : entries = accounts.flatMap Account.entries
  files : files = (accounts.filterMap Account.product).map Product.file

variable {entries : List LogEntry} {files : List OutputFile} {accounts : List Account}

theorem AccountsFor.of_not_mem (h : AccountsFor requested ds entries files accounts)
    {d : FileDescriptor} (hn : d.name.getD "" ∉ requested) :
    AccountsFor requested (d :: ds) entries files accounts where
  sources := by
    have hdropped : ¬decide (d.name.getD "" ∈ requested) = true := by simpa using hn
    rw [h.sources, List.filter_cons, if_neg hdropped]
  isTrue := h.isTrue
  entries := h.entries
  files := h.files

theorem AccountsFor.cons (h : AccountsFor requested ds entries files accounts) {a : Account}
    (hn : a.source.name.getD "" ∈ requested) (ha : a.IsTrue) :
    AccountsFor requested (a.source :: ds) (a.entries ++ entries)
      (a.product.toList.map Product.file ++ files) (a :: accounts) where
  sources := by
    have hkept : decide (a.source.name.getD "" ∈ requested) = true := decide_eq_true hn
    rw [List.map_cons, h.sources, List.filter_cons, if_pos hkept]
  isTrue := List.forall_mem_cons.mpr ⟨ha, h.isTrue⟩
  entries := by rw [h.entries, List.flatMap_cons]
  files := by
    rw [h.files, List.filterMap_cons]
    cases a.product with
    | none => rfl
    | some p => rfl

theorem exists_accounts (h : (generate targets requested ds).files = .ok files) :
    ∃ accounts,
      AccountsFor requested ds (generate targets requested ds).entries files accounts := by
  induction ds generalizing files with
  | nil =>
    cases Except.ok.inj h
    exact ⟨[], rfl, List.forall_mem_nil _, rfl, rfl⟩
  | cons d ds ih =>
    by_cases hn : d.name.getD "" ∈ requested
    · cases hp : product targets d with
      | error e =>
        rw [generate, if_pos hn, hp] at h
        cases h
      | ok p =>
        rw [generate_of_ok hn hp] at h ⊢
        cases hlater : (generate targets requested ds).files with
        | error e =>
          simp only [hlater] at h
          cases h
        | ok later =>
          simp only [hlater] at h
          cases Except.ok.inj h
          obtain ⟨accounts, haccounts⟩ := ih hlater
          exact ⟨⟨d, p⟩ :: accounts, haccounts.cons hn (isTrue_of_product hp)⟩
    · rw [generate_of_not_mem hn] at h ⊢
      obtain ⟨accounts, haccounts⟩ := ih h
      exact ⟨accounts, haccounts.of_not_mem hn⟩

end

def processing (request : Request) : LogEntry :=
  ⟨.info, "Processing " ++ toString request.files.length ++ " proto file(s), generating for "
    ++ toString request.filesToGenerate.eraseDups.length⟩

theorem title_of_mem_applyLevel {level : LogLevel} {options : Options} {e : LogEntry}
    (h : e ∈ (applyLevel level options).2) : e.title = .warn := by
  rw [applyLevel_eq] at h
  cases ha : askedLevel options with
  | none =>
    rw [ha] at h
    cases h
  | some name =>
    simp only [ha, Option.elim_some, LogLevel.change] at h
    split at h
    · cases h
    · have hmem := List.mem_of_mem_filter (show e ∈ level.printed _ from h)
      rw [List.mem_singleton.mp hmem]

section

variable (level : LogLevel) (request : Request) (options : Options)

def progressOf : Progress :=
  generate options.targets request.filesToGenerate.eraseDups request.files

def toldOf : List LogEntry :=
  (applyLevel level options).2 ++
    (applyLevel level options).1.printed
      (processing request :: (progressOf request options).entries)

variable {request options}

theorem title_of_mem_toldOf {e : LogEntry} (h : e ∈ toldOf level request options) :
    e.title ≠ .error := by
  rcases List.mem_append.mp h with h | h
  · rw [title_of_mem_applyLevel h]
    exact (nomatch ·)
  · rcases List.mem_cons.mp (List.mem_of_mem_filter h) with rfl | h
    · exact (nomatch ·)
    · rw [title_of_mem_generate h]
      exact (nomatch ·)

variable (hp : Options.parse (request.parameter.getD "") = .ok options)

include hp

theorem respond_of_error {e : NamingError} (h : (progressOf request options).files = .error e) :
    respond level request =
      .fail (applyLevel level options).1 (toldOf level request options) (.naming e) := by
  rw [progressOf] at h
  rw [respond, hp]
  simp only [h]
  rfl

theorem respond_of_ok {files : List OutputFile}
    (h : (progressOf request options).files = .ok files) :
    respond level request =
      ⟨(applyLevel level options).1, toldOf level request options, .make none files⟩ := by
  rw [progressOf] at h
  rw [respond, hp]
  simp only [h]
  rfl

end

/-- A run fails after entries of which none is an error, or it tells all that there is to tell and
gives the files. -/
theorem run_cases (level : LogLevel) (bytes : List UInt8) :
    (∃ l before e, run level bytes = .fail l before e ∧ ∀ e' ∈ before, e'.title ≠ .error) ∨
    ∃ request options files, Request.decode bytes = .ok request ∧
      (progressOf request options).files = .ok files ∧
      run level bytes =
        ⟨(applyLevel level options).1, toldOf level request options, .make none files⟩ := by
  cases hd : Request.decode bytes with
  | error e =>
    exact .inl ⟨level, [], .request e, run_of_decode_error level hd, List.forall_mem_nil _⟩
  | ok request =>
    rw [run_of_decode level hd]
    cases hp : Options.parse (request.parameter.getD "") with
    | error e =>
      refine .inl ⟨level, [], .naming e, ?_, List.forall_mem_nil _⟩
      rw [respond, hp]
    | ok options =>
      cases hf : (progressOf request options).files with
      | error e =>
        exact .inl ⟨_, _, _, respond_of_error level hp hf, fun _ => title_of_mem_toldOf level⟩
      | ok files => exact .inr ⟨request, options, files, rfl, hf, respond_of_ok level hp hf⟩

theorem entries_fail (level : LogLevel) (before : List LogEntry) (e : RunError) :
    (Outcome.fail level before e).entries = before ++ [failed e] := by
  rw [Outcome.fail, LogLevel.printed_error, failed]

theorem error_fail (level : LogLevel) (before : List LogEntry) (e : RunError) :
    (Outcome.fail level before e).response.error = some e.message := by
  rw [Outcome.fail, Response.make_of_ne_empty fun h => e.message_ne_empty (Option.some.inj h)]

/-- What a run tells ends with the error of its answer, and with no other. Without one, and if it is
told at all, the run accounts for each requested file in order, and the files of the answer are
those that it tells of. -/
theorem run_account (level : LogLevel) (bytes : List UInt8) :
    ((run level bytes).response.error.isSome ↔
      ∃ e ∈ (run level bytes).entries, e.title = .error) ∧
    (∀ error, (run level bytes).response.error = some error →
      ∃ before, (run level bytes).entries = before ++ [⟨.error, "Plugin error: " ++ error⟩] ∧
        ∀ e ∈ before, e.title ≠ .error) ∧
    ((run level bytes).response.error = none → (run level bytes).level.prints .info = true →
      ∃ request warned, ∃ accounts : List Account, Request.decode bytes = .ok request ∧
        (∀ e ∈ warned, e.title = .warn) ∧
        (run level bytes).entries =
          warned ++ processing request :: accounts.flatMap Account.entries ∧
        accounts.map Account.source = request.requestedFiles ∧
        (∀ a ∈ accounts, a.IsTrue) ∧
        (run level bytes).response.files =
          (accounts.filterMap Account.product).map Product.file) := by
  rcases run_cases level bytes with
    ⟨l, before, e, hrun, hbefore⟩ | ⟨request, options, files, hd, hf, hrun⟩
  · rw [hrun, entries_fail, error_fail]
    have hmem : failed e ∈ before ++ [failed e] := by simp
    refine ⟨⟨fun _ => ⟨failed e, hmem, rfl⟩, fun _ => rfl⟩, ?_, ?_⟩
    · intro error herror
      cases Option.some.inj herror
      exact ⟨before, rfl, hbefore⟩
    · intro hnone
      cases hnone
  · rw [hrun]
    have hquiet : ∀ e ∈ toldOf level request options, e.title ≠ .error :=
      fun _ => title_of_mem_toldOf level
    refine ⟨⟨?_, ?_⟩, ?_, ?_⟩
    · intro herror
      cases herror
    · intro ⟨e, he, htitle⟩
      exact absurd htitle (hquiet e he)
    · intro error herror
      cases herror
    · intro _ hinfo
      have htitles : ∀ e ∈ processing request :: (progressOf request options).entries,
          e.title = .info :=
        List.forall_mem_cons.mpr ⟨rfl, fun _ => title_of_mem_generate⟩
      have hprinted := LogLevel.printed_of_infos hinfo htitles
      obtain ⟨accounts, hsources, htrue, hentries, hfiles⟩ := exists_accounts hf
      have htold : toldOf level request options =
          (applyLevel level options).2 ++
            processing request :: accounts.flatMap Account.entries := by
        rw [toldOf, hprinted, progressOf, hentries]
      simp only [List.mem_eraseDups] at hsources
      exact ⟨request, (applyLevel level options).2, accounts, hd,
        fun _ => title_of_mem_applyLevel, htold, hsources, htrue, hfiles⟩

/-- A request that tells more than before, for a file with a message and one with nothing in it. -/
def chattyRequest : Request where
  filesToGenerate := ["empty.proto", "a.proto", "a.proto"]
  parameter := some "log_level=debug"
  files := [fileOf "a.proto" "A", fileOf "b.proto" "B", { name := some "empty.proto" }]

theorem run_account_chattyRequest :
    Request.decode chattyRequest.encode = .ok chattyRequest ∧
      (run .error chattyRequest.encode).response.error = none ∧
      (run .error chattyRequest.encode).level.prints .info = true ∧
      (∃ warned, ∃ accounts : List Account, (∀ e ∈ warned, e.title = .warn) ∧
        (run .error chattyRequest.encode).entries = warned ++
          ⟨.info, "Processing 3 proto file(s), generating for 2"⟩ ::
            accounts.flatMap Account.entries ∧
        accounts.map Account.source =
          [fileOf "a.proto" "A", { name := some "empty.proto" }] ∧
        (∀ a ∈ accounts, a.IsTrue) ∧
        (run .error chattyRequest.encode).response.files =
          (accounts.filterMap Account.product).map Product.file) ∧
      (run .info quietFailure).response.error = some "Unsupported protobuf field type: 0" ∧
      ∃ before, (run .info quietFailure).entries =
          before ++ [⟨.error, "Plugin error: Unsupported protobuf field type: 0"⟩] ∧
        ∀ e ∈ before, e.title ≠ .error := by
  have hdecode : Request.decode chattyRequest.encode = .ok chattyRequest :=
    decode_requestFor (by decide +kernel)
  have hnone : (run .error chattyRequest.encode).response.error = none := by
    rw [run_eq_answer .error hdecode]
    decide +kernel
  have hparse : Options.parse (chattyRequest.parameter.getD "") =
      .ok ⟨some "debug", Target.all⟩ := by decide +kernel
  have hprints : (run .error chattyRequest.encode).level.prints .info = true := by
    rw [run_of_decode .error hdecode, level_respond .error hparse]
    decide +kernel
  have hquiet : Request.decode quietFailure = .ok (requestFor ["bad.proto"] [unsupportedFile]) :=
    decode_requestFor (by decide +kernel)
  have herror : (run .info quietFailure).response.error =
      some "Unsupported protobuf field type: 0" := by
    rw [run_eq_answer .info hquiet]
    decide +kernel
  obtain ⟨_, _, hsuccess⟩ := run_account .error chattyRequest.encode
  obtain ⟨_, hfailure, _⟩ := run_account .info quietFailure
  obtain ⟨request, warned, accounts, hd, hwarned, hentries, hsources, htrue, hfiles⟩ :=
    hsuccess hnone hprints
  cases hdecode.symm.trans hd
  refine ⟨hdecode, hnone, hprints, ⟨warned, accounts, hwarned, hentries, hsources, htrue, hfiles⟩,
    herror, hfailure _ herror⟩

end Plugin

end ProtoNaming

import ProtoNaming.Plugin.Session
import ProtoNaming.Proofs.Plugin.Failure
import ProtoNaming.Proofs.Plugin.RequestRoundTrip

namespace ProtoNaming

open Wire

def Request.requestedFiles (r : Request) : List FileDescriptor :=
  r.files.filter fun d => d.name.getD "" ∈ r.filesToGenerate

theorem NamingError.message_ne_empty (e : NamingError) : e.message ≠ "" := by
  have hhead : ∃ c, e.message.toList.head? = some c := by
    cases e with
    | unsupportedType code => exact ⟨'U', Plugin.head?_unsupportedType code⟩
    | outsidePackage element expectedPrefix =>
      exact ⟨'E', Plugin.head?_outsidePackage element expectedPrefix⟩
    | notExtension field => exact ⟨'F', Plugin.head?_append (Plugin.head?_append rfl _) _⟩
    | unknownTarget name => exact ⟨'U', Plugin.head?_unknownTarget name⟩
  intro h
  obtain ⟨c, hc⟩ := hhead
  rw [h] at hc
  cases hc

namespace Plugin

/-- The output of files that are all to be generated. -/
def outputs (targets : List Target) (ds : List FileDescriptor) :
    Except NamingError (List OutputFile) :=
  (ds.mapM (product targets)).map fun ps => (ps.filterMap id).map Product.file

/-- The answer to a parameter and the files to be generated for it. -/
def answer (parameter : String) (ds : List FileDescriptor) : Response :=
  match Options.parse parameter with
  | .error e => .make (some e.message) []
  | .ok options =>
    match outputs options.targets ds with
    | .error e => .make (some e.message) []
    | .ok files => .make none files

theorem outputs_cons (targets : List Target) (d : FileDescriptor) (ds : List FileDescriptor) :
    outputs targets (d :: ds) =
      product targets d >>= fun p => (outputs targets ds).map (p.toList.map Product.file ++ ·) := by
  rw [outputs, outputs, List.mapM_cons]
  cases product targets d with
  | error e => rfl
  | ok p =>
    cases ds.mapM (product targets) with
    | error e => rfl
    | ok ps => cases p <;> rfl

theorem outputs_append {targets : List Target} {ds es : List FileDescriptor}
    {files : List OutputFile} :
    outputs targets (ds ++ es) = .ok files ↔
      ∃ before after, outputs targets ds = .ok before ∧ outputs targets es = .ok after ∧
        files = before ++ after := by
  have hsplit (ps qs : List (Option Product)) :
      ((ps ++ qs).filterMap id).map Product.file =
        (ps.filterMap id).map Product.file ++ (qs.filterMap id).map Product.file := by
    rw [List.filterMap_append, List.map_append]
  simp only [outputs, List.mapM_append]
  cases ds.mapM (product targets) with
  | error e =>
    constructor
    · exact (nomatch ·)
    · intro ⟨_, _, hb, _⟩
      cases hb
  | ok ps =>
    cases es.mapM (product targets) with
    | error e =>
      constructor
      · exact (nomatch ·)
      · intro ⟨_, _, _, ha, _⟩
        cases ha
    | ok qs =>
      constructor
      · intro h
        cases h
        exact ⟨_, _, rfl, rfl, hsplit ps qs⟩
      · intro ⟨before, after, hb, ha, hf⟩
        cases hb
        cases ha
        rw [hf, ← hsplit]
        rfl

/-- Going through the files passes over those that were not requested. -/
theorem files_generate (targets : List Target) (requested : List String)
    (ds : List FileDescriptor) :
    (generate targets requested ds).files =
      outputs targets (ds.filter fun d => d.name.getD "" ∈ requested) := by
  induction ds with
  | nil => rfl
  | cons d ds ih =>
    rw [generate, List.filter_cons]
    by_cases hn : d.name.getD "" ∈ requested
    · have hkept : decide (d.name.getD "" ∈ requested) = true := decide_eq_true hn
      rw [if_pos hn, if_pos hkept, outputs_cons, ← ih]
      cases product targets d with
      | error e => rfl
      | ok p =>
        cases p with
        | none =>
          have hsame (files : Except NamingError (List OutputFile)) :
              files = files.map fun rest => [] ++ rest := by
            cases files <;> rfl
          exact hsame _
        | some p => rfl
    · have hdropped : ¬decide (d.name.getD "" ∈ requested) = true := by simpa using hn
      rw [if_neg hn, if_neg hdropped, ih]

theorem response_respond (level : LogLevel) (request : Request) :
    (respond level request).response =
      answer (request.parameter.getD "") request.requestedFiles := by
  rw [respond, answer]
  cases Options.parse (request.parameter.getD "") with
  | error e => rfl
  | ok options =>
    have hfiles := files_generate options.targets request.filesToGenerate.eraseDups request.files
    simp only [List.mem_eraseDups] at hfiles
    simp only [hfiles]
    rw [← Request.requestedFiles]
    cases outputs options.targets request.requestedFiles <;> rfl

theorem run_of_decode {bytes : List UInt8} {request : Request} (level : LogLevel)
    (h : Request.decode bytes = .ok request) : run level bytes = respond level request := by
  rw [run, h]

theorem run_eq_answer {bytes : List UInt8} {request : Request} (level : LogLevel)
    (h : Request.decode bytes = .ok request) :
    (run level bytes).response = answer (request.parameter.getD "") request.requestedFiles := by
  rw [run_of_decode level h, response_respond]

theorem answer_of_no_error {parameter : String} {ds : List FileDescriptor}
    (h : (answer parameter ds).error = none) :
    ∃ options files, Options.parse parameter = .ok options ∧
      outputs options.targets ds = .ok files ∧ answer parameter ds = .make none files := by
  have hfailed (e : NamingError) : (Response.make (some e.message) []).error ≠ none := by
    simp [Response.make, e.message_ne_empty]
  unfold answer at h ⊢
  cases hp : Options.parse parameter with
  | error e =>
    rw [hp] at h
    exact absurd h (hfailed e)
  | ok options =>
    cases ho : outputs options.targets ds with
    | error e =>
      simp only [hp, ho] at h
      exact absurd h (hfailed e)
    | ok files => exact ⟨options, files, rfl, ho, by simp only [ho]⟩

theorem answer_append {parameter : String} {ds es : List FileDescriptor}
    (h : (answer parameter (ds ++ es)).error = none) :
    (answer parameter ds).error = none ∧ (answer parameter es).error = none ∧
      (answer parameter (ds ++ es)).files =
        (answer parameter ds).files ++ (answer parameter es).files := by
  obtain ⟨options, files, hp, hfiles, hanswer⟩ := answer_of_no_error h
  obtain ⟨before, after, hb, ha, rfl⟩ := outputs_append.mp hfiles
  have hbefore : answer parameter ds = .make none before := by
    simp only [answer, hp, hb]
  have hafter : answer parameter es = .make none after := by
    simp only [answer, hp, ha]
  rw [hanswer, hbefore, hafter]
  exact ⟨rfl, rfl, rfl⟩

def levelAfter (level : LogLevel) (steps : List Step) : LogLevel :=
  steps.foldl (fun level s => (step level s).1) level

theorem replies_append (level : LogLevel) (before after : List Step) :
    replies level (before ++ after) =
      replies level before ++ replies (levelAfter level before) after := by
  induction before generalizing level with
  | nil => rfl
  | cons s before ih =>
    rw [List.cons_append, replies, ih, replies, List.cons_append]
    rfl

theorem run_response_eq (level₁ level₂ : LogLevel) (bytes : List UInt8) :
    (run level₁ bytes).response = (run level₂ bytes).response := by
  cases h : Request.decode bytes with
  | error e =>
    rw [run_of_decode_error level₁ h, run_of_decode_error level₂ h]
    rfl
  | ok request => rw [run_eq_answer level₁ h, run_eq_answer level₂ h]

/-- What is answered depends on the parameter and the requested files alone: on no other file, on
no level and on nothing that was asked before; and the files of a list are made one by one. -/
theorem run_of_requestedFiles :
    (∀ level₁ level₂ bytes₁ bytes₂ r₁ r₂, Request.decode bytes₁ = .ok r₁ →
      Request.decode bytes₂ = .ok r₂ → r₁.parameter = r₂.parameter →
      r₁.requestedFiles = r₂.requestedFiles →
      (run level₁ bytes₁).response.encode = (run level₂ bytes₂).response.encode) ∧
    (∀ level level' earlier bytes,
      (replies level (earlier ++ [.run bytes])).getLast?.map Reply.result =
        some (.response (run level' bytes).response)) ∧
    ∀ level levelA levelB bytes bytesA bytesB (r : Request) as bs,
      Request.decode bytes = .ok { r with files := as ++ bs } →
      Request.decode bytesA = .ok { r with files := as } →
      Request.decode bytesB = .ok { r with files := bs } →
      (run level bytes).response.error = none →
      (run levelA bytesA).response.error = none ∧ (run levelB bytesB).response.error = none ∧
      (run level bytes).response.files =
        (run levelA bytesA).response.files ++ (run levelB bytesB).response.files := by
  refine ⟨?_, ?_, ?_⟩
  · intro level₁ level₂ bytes₁ bytes₂ r₁ r₂ h₁ h₂ hparameter hfiles
    rw [run_eq_answer level₁ h₁, run_eq_answer level₂ h₂, hparameter, hfiles]
  · intro level level' earlier bytes
    rw [replies_append, replies, replies, List.getLast?_concat, Option.map_some, step]
    exact congrArg (some ∘ Result.response) (run_response_eq _ level' bytes)
  · intro level levelA levelB bytes bytesA bytesB r as bs h hA hB hnone
    have hfiles : Request.requestedFiles { r with files := as ++ bs } =
        Request.requestedFiles { r with files := as } ++
          Request.requestedFiles { r with files := bs } := List.filter_append as bs
    rw [run_eq_answer level h, hfiles] at hnone ⊢
    rw [run_eq_answer levelA hA, run_eq_answer levelB hB]
    exact answer_append hnone

def fileOf (path message : String) : FileDescriptor where
  name := some path
  messages := [{ name := some message }]

def requestFor (paths : List String) (ds : List FileDescriptor) : Request where
  filesToGenerate := paths
  parameter := some "log_level=error"
  files := ds

/-- A file that has no names, for it has a field without a type. -/
def unsupportedFile : FileDescriptor where
  name := some "bad.proto"
  extensions := [{ name := some "untyped" }]

theorem decode_requestFor {r : Request}
    (h : r.HasInt32s ∧ r.encode.length < 2 ^ 32 ∧ r.depth ≤ maxDepth) :
    Request.decode r.encode = .ok r :=
  Request.decode_encode_of_depth h.1 h.2.1 h.2.2

theorem run_of_requestedFiles_unsupportedFile :
    let paths := ["a.proto", "b.proto"]
    let a := fileOf "a.proto" "A"
    let b := fileOf "b.proto" "B"
    let only := requestFor ["a.proto"] [a]
    let more := requestFor ["none.proto", "a.proto", "a.proto"] [unsupportedFile, a]
    let both := requestFor paths [a, b]
    Request.decode only.encode = .ok only ∧ Request.decode more.encode = .ok more ∧
      only.parameter = more.parameter ∧ only.requestedFiles = more.requestedFiles ∧
      (run .info only.encode).response.encode = (run .warn more.encode).response.encode ∧
      Request.decode both.encode = .ok { both with files := [a] ++ [b] } ∧
      (run .info both.encode).response.error = none ∧
      (run .info both.encode).response.files =
        (run .info (requestFor paths [a]).encode).response.files ++
          (run .info (requestFor paths [b]).encode).response.files := by
  intro paths a b only more both
  obtain ⟨hsame, _, hsplit⟩ := run_of_requestedFiles
  have honly : Request.decode only.encode = .ok only := decode_requestFor (by decide +kernel)
  have hmore : Request.decode more.encode = .ok more := decode_requestFor (by decide +kernel)
  have hboth : Request.decode both.encode = .ok both := decode_requestFor (by decide +kernel)
  have hfirst : Request.decode (requestFor paths [a]).encode = .ok (requestFor paths [a]) :=
    decode_requestFor (by decide +kernel)
  have hsecond : Request.decode (requestFor paths [b]).encode = .ok (requestFor paths [b]) :=
    decode_requestFor (by decide +kernel)
  have hfiles : only.requestedFiles = more.requestedFiles := rfl
  have hnone : (run .info both.encode).response.error = none := by
    rw [run_eq_answer .info hboth]
    decide +kernel
  obtain ⟨_, _, hparts⟩ := hsplit .info .info .info both.encode _ _ both [a] [b] hboth hfirst
    hsecond hnone
  exact ⟨honly, hmore, rfl, hfiles, hsame .info .warn _ _ only more honly hmore rfl hfiles, hboth,
    hnone, hparts⟩

end Plugin

end ProtoNaming

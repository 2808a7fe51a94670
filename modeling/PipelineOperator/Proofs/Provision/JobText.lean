import PipelineOperator.Proofs.Operation.Trial
import PipelineOperator.Proofs.Provision.GateText
import PipelineOperator.Proofs.Provision.Job

/-!
What the configuration of a job tells. It is read as the parameters of the job
(`JobParameters.ofText?_text`), so different parameters have different texts, and the job of a stage
is patched when its parameters have changed (`StageJob.requests_bring`). Whichever calls fail, there
is a configuration: the look-ups of the library decide no more than whether it comes with a library
(`StageJob.amid_resolveLibrary`).
-/

set_option autoImplicit false
set_option relaxedAutoImplicit false

namespace PipelineOperator

theorem Decimal.ofList_intChars (n : Int) : String.ofList (intChars n) = toString n := by
  cases n with
  | ofNat m => rfl
  | negSucc m =>
    have hchars : intChars (.negSucc m) = '-' :: Nat.toDigits 10 (m + 1) :=
      if_pos (Int.negSucc_lt_zero m)
    have htext : toString (Int.negSucc m) = "-" ++ String.ofList (Nat.toDigits 10 (m + 1)) := rfl
    rw [hchars, htext, String.ofList_cons]
    rfl

namespace JobParameters

theorem isExact_encode (p : JobParameters) : p.encode.isExact = true := by
  unfold encode
  cases p.library <;> rfl

/-- The text of parameters is read as their document. -/
theorem ofText?_text (p : JobParameters) : Json.ofText? p.text = some p.encode :=
  Json.ofText?_render Json.Lexeme.faithful_escapeHtml (isExact_encode p)

theorem autodeploy_injective {b b' : Bool}
    (hsame : (if b then "true" else "false") = (if b' then "true" else "false")) : b = b' := by
  revert b b'
  decide

theorem library_injective {l l' : Option LibraryParameters}
    (hsame : (l.map (·.members)).getD [] = (l'.map (·.members)).getD []) : l = l' := by
  cases l with
  | none =>
    cases l' with
    | none => rfl
    | some l' => exact nomatch hsame
  | some l =>
    cases l' with
    | none => exact nomatch hsame
    | some l' =>
      simp only [Option.map_some, Option.getD_some, LibraryParameters.members, List.cons.injEq,
        Prod.mk.injEq, Json.string.injEq, true_and, and_true] at hsame
      obtain ⟨hurl, hbranch, hcredentials, hserver⟩ := hsame
      exact congrArg some
        (LibraryParameters.mk.injEq .. ▸ ⟨hurl, hbranch, hcredentials, hserver⟩)

theorem encode_injective {p q : JobParameters} (hsame : p.encode = q.encode) : p = q := by
  simp only [encode, Json.object.injEq, List.cons_append, List.nil_append, List.cons.injEq,
    Prod.mk.injEq, Json.string.injEq, true_and] at hsame
  obtain ⟨hpipeline, hstage, hgates, -, hautodeploy, htype, hlibrary⟩ := hsame
  exact JobParameters.mk.injEq .. ▸ ⟨hpipeline, hstage, hgates, autodeploy_injective hautodeploy,
    htype, library_injective hlibrary⟩

/-- Different parameters have different texts. -/
theorem text_injective {p q : JobParameters} (hsame : p.text = q.text) : p = q := by
  refine encode_injective (Option.some.inj ?_)
  rw [← ofText?_text, ← ofText?_text, hsame]

end JobParameters

/-! ### Reads in a trial -/

/-- From the one trial to the other there were these requests, and they were reads. -/
structure Trial.Reads (requests : List Request) (t t' : Trial Bench) : Prop where
  store : t'.state.store = t.state.store
  requests : t'.calls.map Call.request = t.calls.map Call.request ++ requests

namespace Trial.Reads

variable {requests : List Request} {t t' : Trial Bench}

theorem calls_length (hreads : Reads requests t t') :
    t'.calls.length = t.calls.length + requests.length := by
  have hlength := congrArg List.length hreads.requests
  simpa only [List.length_map, List.length_append] using hlength

end Trial.Reads

namespace Operation

variable {k : Kind} {faults : Nat → Option Fault}

/-- A bench serves every read that is not made to fail. -/
theorem amid_read (k : Kind) (key : Key) (faults : Nat → Option Fault) (t : Trial Bench) :
    ∃ t', Trial.Reads [.get k key] t t' ∧
      (get k key).amid faults t =
        ((faults t.calls.length).elim (.ok (t.state.store.find? k key)) .error, t') := by
  cases hfault : faults t.calls.length with
  | some fault =>
    refine ⟨⟨t.state, t.calls ++ [⟨.get k key, t.state, true⟩], t.observed⟩,
      ⟨rfl, List.map_append⟩, ?_⟩
    show (Bench.backend.hindered faults).answer (.get k key) t = _
    simp only [Backend.hindered, hfault]
    rfl
  | none =>
    refine ⟨⟨(Bench.answer (.get k key) t.state).2,
      t.calls ++ [⟨.get k key, t.state, false⟩], t.observed⟩, ⟨rfl, List.map_append⟩, ?_⟩
    show (Bench.backend.hindered faults).answer (.get k key) t = _
    simp only [Backend.hindered, hfault]
    rfl

/-- What is required is found, unless the read fails or there is nothing. -/
theorem amid_require_bind {β : Type} (key : Key) (missing : Cause) (f : Object k → Operation β)
    (faults : Nat → Option Fault) (t : Trial Bench) :
    ∃ t', Trial.Reads [.get k key] t t' ∧
      ((∃ e, (require k key missing >>= f).amid faults t = (.error e, t') ∧
          ∀ o, faults t.calls.length = none → t.state.store.find? k key ≠ some o) ∨
        ∃ o, faults t.calls.length = none ∧ t.state.store.find? k key = some o ∧
          (require k key missing >>= f).amid faults t = (f o).amid faults t') := by
  obtain ⟨t', hreads, hget⟩ := amid_read k key faults t
  refine ⟨t', hreads, ?_⟩
  unfold require
  rw [amid_bind, amid_bind, hget]
  cases faults t.calls.length with
  | some fault => exact .inl ⟨fault, rfl, fun _ hfault ↦ nomatch hfault⟩
  | none =>
    cases t.state.store.find? k key with
    | none => exact .inl ⟨_, rfl, fun _ _ hfound ↦ nomatch hfound⟩
    | some o => exact .inr ⟨o, rfl, rfl, rfl⟩

end Operation

namespace StageJob

open Operation

/-! ### The library -/

/-- The calls of the trial from here on find the codebase of the referenced library and the git
server of that. An imported codebase has to have a path. -/
def Locates (faults : Nat → Option Fault) (t : Trial Bench) (ns : String) (reference : Library)
    (l : LibraryParameters) : Prop :=
  ∃ (codebase : Codebase) (server : GitServer) (path : String),
    faults t.calls.length = none ∧
      t.state.store.find? .codebase ⟨ns, reference.name⟩ = some codebase ∧
      faults (t.calls.length + 1) = none ∧
      t.state.store.find? .gitServer ⟨ns, CodebaseSpec.gitServer codebase.spec⟩ = some server ∧
      (if CodebaseSpec.strategy codebase.spec = "import" then
        CodebaseSpec.gitUrlPath codebase.spec else some ("/" ++ reference.name)) = some path ∧
      l = {
        url := "ssh://" ++ GitServerSpec.user server.spec ++ "@" ++
          GitServerSpec.host server.spec ++ ":" ++
          toString (GitServerSpec.sshPort server.spec).toInt ++ path
        branch := reference.branch
        credentials := GitServerSpec.sshKeySecret server.spec
        gitServer := server.metadata.anyName }

theorem libraryPath?_eq (reference : Library) (codebase : CodebaseSpec) :
    libraryPath? reference codebase =
      if codebase.strategy = "import" then codebase.gitUrlPath
      else some ("/" ++ reference.name) := by
  unfold libraryPath? CodebaseSpec.isImported
  simp only [beq_iff_eq]

/-- Once both look-ups have succeeded only the path may be missing. -/
theorem locates_iff {faults : Nat → Option Fault} {t : Trial Bench} {ns : String}
    {reference : Library} {l : LibraryParameters} {codebase : Codebase} {server : GitServer}
    (hfault : faults t.calls.length = none)
    (hcodebase : t.state.store.find? .codebase ⟨ns, reference.name⟩ = some codebase)
    (hfault' : faults (t.calls.length + 1) = none)
    (hserver : t.state.store.find? .gitServer ⟨ns, CodebaseSpec.gitServer codebase.spec⟩ =
      some server) :
    Locates faults t ns reference l ↔
      ∃ path, libraryPath? reference codebase.spec = some path ∧ l = {
        url := cloneUrl server.spec path
        branch := reference.branch
        credentials := GitServerSpec.sshKeySecret server.spec
        gitServer := server.metadata.anyName } := by
  simp only [libraryPath?_eq, cloneUrl, Decimal.ofList_intChars]
  constructor
  · rintro ⟨codebase', server', path, -, hcodebase', -, hserver', hpath, hl⟩
    obtain rfl := Option.some.inj (hcodebase.symm.trans hcodebase')
    obtain rfl := Option.some.inj (hserver.symm.trans hserver')
    exact ⟨path, hpath, hl⟩
  · rintro ⟨path, hpath, hl⟩
    exact ⟨codebase, server, path, hfault, hcodebase, hfault', hserver, hpath, hl⟩

theorem amid_libraryParameters (ns : String) (reference : Library)
    (faults : Nat → Option Fault) (t : Trial Bench) :
    ∃ r t', (libraryParameters ns reference).amid faults t = (r, t') ∧
      t'.state.store = t.state.store ∧ ∀ l, r = .ok l ↔ Locates faults t ns reference l := by
  unfold libraryParameters
  obtain ⟨t', hreads, ⟨e, htrial, hnone⟩ | ⟨codebase, hfault, hcodebase, htrial⟩⟩ :=
    amid_require_bind (k := .codebase) ⟨ns, reference.name⟩ _ _ faults t
  · refine ⟨_, _, htrial, hreads.store, fun l ↦ ⟨nofun, ?_⟩⟩
    rintro ⟨codebase, -, -, hfault, hcodebase, -⟩
    exact absurd hcodebase (hnone codebase hfault)
  obtain ⟨t'', hreads', hserver⟩ :=
    amid_require_bind (k := .gitServer) ⟨ns, CodebaseSpec.gitServer codebase.spec⟩ _ _ faults t'
  have hstore : t''.state.store = t.state.store := hreads'.store.trans hreads.store
  rw [hreads.calls_length, hreads.store] at hserver
  obtain ⟨e, htrial', hnone⟩ | ⟨server, hfault', hserver, htrial'⟩ := hserver
  · refine ⟨_, _, htrial.trans htrial', hstore, fun l ↦ ⟨nofun, ?_⟩⟩
    rintro ⟨codebase', server, -, -, hcodebase', hfault', hserver, -⟩
    obtain rfl := Option.some.inj (hcodebase.symm.trans hcodebase')
    exact absurd hserver (hnone server hfault')
  rw [htrial, htrial']
  simp only [locates_iff hfault hcodebase hfault' hserver]
  cases libraryPath? reference codebase.spec with
  | none =>
    refine ⟨_, t'', rfl, hstore, fun l ↦ ⟨nofun, ?_⟩⟩
    rintro ⟨path, hpath, -⟩
    exact nomatch hpath
  | some path =>
    refine ⟨_, t'', rfl, hstore, fun l ↦ ⟨fun hl ↦ ⟨path, rfl, (Except.ok.inj hl).symm⟩, ?_⟩⟩
    rintro ⟨_, ⟨⟩, rfl⟩
    rfl

/-- Whichever calls fail, it is settled whether there is a library, and nothing was done. -/
theorem amid_resolveLibrary (stage : Stage) (faults : Nat → Option Fault) (t : Trial Bench) :
    ∃ library t', (resolveLibrary stage).amid faults t = (.ok library, t') ∧
      t'.state.store = t.state.store ∧ ∀ l, library = some l ↔ stage.spec.source.kind = .library ∧
        ∃ reference, stage.spec.source.library = some reference ∧
          Locates faults t stage.metadata.namespaceOrEmpty reference l := by
  unfold resolveLibrary
  split
  · next reference hkind hreference =>
    obtain ⟨r, t', htrial, hstore, hlocates⟩ :=
      amid_libraryParameters stage.metadata.namespaceOrEmpty reference faults t
    rw [map_eq_pure_bind, amid_tryCatch, amid_bind, htrial]
    have hiff (l : LibraryParameters) : r = .ok l ↔ stage.spec.source.kind = .library ∧
        ∃ reference, stage.spec.source.library = some reference ∧
          Locates faults t stage.metadata.namespaceOrEmpty reference l := by
      rw [hlocates, hreference]
      constructor
      · exact fun hlocated ↦ ⟨hkind, reference, rfl, hlocated⟩
      · rintro ⟨-, _, ⟨⟩, hlocated⟩
        exact hlocated
    cases r with
    | error e => exact ⟨none, t', rfl, hstore, fun l ↦ by rw [← hiff]; exact ⟨nofun, nofun⟩⟩
    | ok parameters =>
      refine ⟨some parameters, t', rfl, hstore, fun l ↦ ?_⟩
      rw [← hiff, Option.some.injEq, Except.ok.injEq]
  · next hnone =>
    refine ⟨none, t, rfl, rfl, fun l ↦ ⟨nofun, ?_⟩⟩
    rintro ⟨hkind, reference, hreference, -⟩
    exact (hnone reference hkind hreference).elim

theorem amid_config {stage : Stage} {faults : Nat → Option Fault} {t t' : Trial Bench}
    {library : Option LibraryParameters}
    (htrial : (resolveLibrary stage).amid faults t = (.ok library, t')) (pipeline : Pipeline) :
    (StageJob.config stage pipeline).amid faults t =
      (.ok (parameters stage pipeline library).text, t') := by
  unfold StageJob.config
  rw [amid_bind, htrial]
  rfl

/-! ### Patches -/

/-- The requests with which an existing job is brought to its parameters: there is a patch exactly
if it had others. -/
theorem requests_bring {stage : Stage} {faults : Nat → Option Fault} {t : Trial Bench}
    {existing : JenkinsJob} {p q : JobParameters}
    (hfound : t.state.store.find? .jenkinsJob stage.key = some existing)
    (hconfig : existing.spec.job.config = q.text) (hfault : faults t.calls.length = none) :
    ((bring stage p.text).amid faults t).2.calls.map Call.request =
      t.calls.map Call.request ++ .get .jenkinsJob stage.key ::
        if q = p then [] else [.setJobConfig stage.key p.text] := by
  obtain ⟨t', hreads, hget⟩ := amid_read .jenkinsJob stage.key faults t
  rw [hfault, hfound] at hget
  unfold bring
  rw [amid_bind, hget]
  simp only [Option.elim]
  by_cases hsame : q = p
  · subst hsame
    rw [if_pos hconfig, if_pos rfl]
    exact hreads.requests
  · have hother : existing.spec.job.config ≠ p.text :=
      fun heq ↦ hsame (JobParameters.text_injective (hconfig ▸ heq))
    obtain ⟨reply, b, hanswer, -⟩ :=
      Bench.hindered_answer faults (.setJobConfig stage.key p.text) t'
    have hcall : (setJobConfig stage.key p.text).amid faults t' = _ := hanswer
    rw [if_neg hother, if_neg hsame, hcall, List.map_append, hreads.requests]
    exact List.append_assoc ..

/-- Whichever calls fail, the configuration of a job is there, and is read as the parameters of the
stage, with those of its library if and only if that can be located. The gates in it are read as
their groups, and these tell the gates. Different parameters have different texts, so an existing
job is patched exactly if it has the text of other parameters. -/
theorem config_tellsParameters (stage : Stage) (pipeline : Pipeline)
    (faults : Nat → Option Fault) (t : Trial Bench) :
    ∃ library t', (StageJob.config stage pipeline).amid faults t =
        (.ok (parameters stage pipeline library).text, t') ∧
      t'.state.store = t.state.store ∧
      Json.ofText? (parameters stage pipeline library).text = some (.object ([
        ("PIPELINE_NAME", .string stage.spec.pipeline),
        ("STAGE_NAME", .string stage.spec.name),
        ("QG_STAGES", .string (gateText stage.spec.qualityGates)),
        ("GIT_SERVER_CR_VERSION", .string "v2"),
        ("SOURCE_TYPE", .string (if library.isSome then "library" else "default")),
        ("AUTODEPLOY", .string (if stage.spec.trigger = .auto then "true" else "false")),
        ("DEPLOYMENT_TYPE", .string pipeline.spec.deploymentType)] ++
        match library with
        | none => []
        | some l => [
          ("LIBRARY_URL", .string l.url), ("LIBRARY_BRANCH", .string l.branch),
          ("GIT_CREDENTIALS_ID", .string l.credentials),
          ("GIT_SERVER_CR_NAME", .string l.gitServer)])) ∧
      Json.ofText? ("[" ++ gateText stage.spec.qualityGates ++ "]") =
        some (.array ((GateGroup.ofGates stage.spec.qualityGates).map GateGroup.encode)) ∧
      TellGates stage.spec.qualityGates
        ((GateGroup.ofGates stage.spec.qualityGates).map GateGroup.encode) ∧
      (∀ l, library = some l ↔ stage.spec.source.kind = .library ∧
        ∃ reference, stage.spec.source.library = some reference ∧
          Locates faults t stage.metadata.namespaceOrEmpty reference l) ∧
      (∀ p q : JobParameters, p.text = q.text → p = q) ∧
      ∀ (start : Trial Bench) (existing : JenkinsJob) (q : JobParameters),
        stage.parent.amid faults start = (.ok pipeline, t) →
        t.state.store.find? .jenkinsJob stage.key = some existing →
        existing.spec.job.config = q.text → faults t'.calls.length = none →
        ((serve stage).amid faults start).2.calls.map Call.request =
          t'.calls.map Call.request ++ .get .jenkinsJob stage.key ::
            if q = parameters stage pipeline library then []
            else [.setJobConfig stage.key (parameters stage pipeline library).text] := by
  obtain ⟨library, t', htrial, hstore, hlibrary⟩ := amid_resolveLibrary stage faults t
  have hconfig := amid_config htrial pipeline
  have hautomatic : stage.isAutomatic = true ↔ stage.spec.trigger = .auto := beq_iff_eq
  refine ⟨library, t', hconfig, hstore, ?_, ofText?_gateText _, tellGates_ofGates _, hlibrary,
    fun _ _ ↦ JobParameters.text_injective, fun start existing q hparent hfound hold hfault ↦ ?_⟩
  · rw [JobParameters.ofText?_text]
    simp only [← hautomatic]
    cases library <;> rfl
  · rw [← hstore] at hfound
    rw [serve_eq, amid_bind, hparent]
    simp only [amid_bind, hconfig]
    exact requests_bring hfound hold hfault

/-- A stage whose job comes from an imported library. -/
def fromLibrary : Stage :=
  let plain := Fixture.stage "dev" "ci" "p" 0
  { plain with spec := { plain.spec with source := ⟨.library, some ⟨"lib", "main"⟩⟩ } }

/-- The parameters of its job, with or without the library. -/
def parametersFromLibrary (isLocated : Bool) : JobParameters where
  pipeline := "p"
  stage := "dev"
  gates := gateText [⟨.manual, "m1", none, none⟩]
  autodeploy := true
  deploymentType := "container"
  library := if isLocated then some {
    url := "ssh://edp-ci@gerrit.example.com:29418/path"
    branch := "main"
    credentials := "gerrit-ciuser-sshkey"
    gitServer := "gerrit" } else none

/-- A bench on which the job does not know of the library yet. -/
def outdated : Bench :=
  (((Bench.seedPipeline {} ["cb-a"]).put (Fixture.codebase "lib" "ci" "import" "/path")).put
    (Fixture.gitServer "ci")).put (build fromLibrary (parametersFromLibrary false).text)

theorem config_tellsParameters_outdated :
    parametersFromLibrary false ≠ parametersFromLibrary true ∧
      ((serve fromLibrary).attempt (fun _ ↦ none) outdated).2.calls.map Call.request = [
        .get .pipeline ⟨"ci", "p"⟩, .get .codebase ⟨"ci", "lib"⟩, .get .gitServer ⟨"ci", "gerrit"⟩,
        .get .jenkinsJob ⟨"ci", "dev"⟩,
        .setJobConfig ⟨"ci", "dev"⟩ (parametersFromLibrary true).text] := by
  refine ⟨by decide, ?_⟩
  obtain ⟨library, t, hconfig, -, -, -, -, hlocates, -, hpatches⟩ :=
    config_tellsParameters fromLibrary (Fixture.pipeline "p" "ci" ["img-a"] ["cb-a"] ["cb-a"])
      (fun _ ↦ none) (fromLibrary.parent.amid (fun _ ↦ none) { state := outdated }).2
  have hrequests := hpatches { state := outdated }
    (build fromLibrary (parametersFromLibrary false).text) (parametersFromLibrary false)
    rfl rfl rfl rfl
  obtain rfl : library = (parametersFromLibrary true).library :=
    (hlocates _).mpr ⟨rfl, _, rfl, Fixture.codebase "lib" "ci" "import" "/path",
      Fixture.gitServer "ci", "/path", rfl, rfl, rfl, rfl, rfl, rfl⟩
  obtain rfl := (Prod.mk.inj hconfig).2
  have hparameters : parameters fromLibrary (Fixture.pipeline "p" "ci" ["img-a"] ["cb-a"] ["cb-a"])
      (parametersFromLibrary true).library = parametersFromLibrary true := rfl
  rw [hparameters, if_neg (by decide)] at hrequests
  unfold attempt
  rw [hrequests]
  rfl

end StageJob

end PipelineOperator

import Stasis.Jit.Closure
import Stasis.Jit.Process
import Stasis.Lib.Effects

namespace Stasis.Jit

open Stasis.Jit.Compiler
open List

structure Supplied (Config : Type) where
  files : List SourceFile := []
  projectRoot : Option SourcePath := none
  projectConfiguration : Option Config := none
  requiredRoots : Finset String := ∅

namespace Supplied

variable {Config Analysis Generation : Type}

def after (s : Supplied Config) : Operation Config → Supplied Config
  | .upsertFile path text =>
    match SourcePath.canonicalSourcePath s.projectRoot path with
    | .error _ => s
    | .ok path => { s with files := Compiler.upsertLoaded s.files ⟨path, text⟩ }
  | .retainFiles paths =>
    { s with files := s.files.filter fun file =>
        (Compiler.canonicalPaths s.projectRoot paths).contains file.path }
  | .setProjectRoot root =>
    match Compiler.checkedProjectRoot root with
    | .error _ => s
    | .ok root => { s with projectRoot := some root }
  | .setProjectConfiguration configuration =>
    { s with projectConfiguration := some configuration }
  | .setRequiredEmitRoots roots => { s with requiredRoots := roots }
  | .compileStaged | .compile => s

def of (history : List (Operation Config)) : Supplied Config := history.foldl after {}

def settingsEnabled (tc : Toolchain Config Analysis Generation) (s : Supplied Config) : Bool :=
  s.projectConfiguration.elim false tc.generatedApiEnabled

def fresh (tc : Toolchain Config Analysis Generation) (s : Supplied Config) :
    JitProcess Config Analysis Generation where
  compiler := s.files.foldl (fun c file => c.upsertFile file.path file.text)
    { projectRoot := s.projectRoot
      projectSettingsApiEnabled := s.settingsEnabled tc
      analysisRequiredRoots := s.requiredRoots }
  projectConfiguration := s.projectConfiguration
  requiredEmitRoots := s.requiredRoots

end Supplied

/-- The files of a compiler are well formed: distinct canonical paths, and every
entry root is one of them. -/
structure Compiler.Tidy (c : Compiler) : Prop where
  nodup : c.paths.Nodup
  canonical : ∀ f ∈ c.files, f.path.Canonical
  roots : ∀ path ∈ c.entryRoots, path ∈ c.paths

lemma tidy_empty : ({} : Compiler).Tidy := ⟨nodup_nil, by simp, by simp⟩

lemma Compiler.Tidy.of_same {c c' : Compiler} (h : c.Tidy) (hsame : c.SameSources c')
    (hnodup : c'.paths.Nodup) (hroots : ∀ path ∈ c'.entryRoots, path ∈ c.entryRoots) : c'.Tidy :=
  ⟨hnodup, fun f hf => h.canonical f ((hsame.files f).mp hf),
    fun path hpath => hsame.mem_paths.mpr (h.roots path (hroots path hpath))⟩

namespace JitProcess

variable {Config Analysis Generation : Type}

def fallback (p : JitProcess Config Analysis Generation) : Compiler := p.activeCompiler.getD {}

/-- When a failed compile gives the caller's sources back: the accepted compiler
has the same project root and settings, no file that was removed since, and the
configuration has not changed. -/
structure Recoverable (p : JitProcess Config Analysis Generation) : Prop where
  projectRoot : p.fallback.projectRoot = p.compiler.projectRoot
  settings : p.fallback.projectSettingsApiEnabled = p.compiler.projectSettingsApiEnabled
  files : ∀ path ∈ p.fallback.paths, path ∈ p.compiler.paths
  configuration : ∀ snapshot ∈ p.activeProgramSnapshot,
    snapshot.projectConfiguration = p.projectConfiguration

def failed : EStateM.Result String (JitProcess Config Analysis Generation) Unit → Bool
  | .ok _ _ => false
  | .error _ _ => true

variable (tc : Toolchain Config Analysis Generation)

/-- What is asked of a compile: its sources are self-contained, and if it fails
they can be recovered. -/
def CleanCompile (p : JitProcess Config Analysis Generation) : Prop :=
  p.compiler.selfContained tc = true ∧ (failed (compileStaged tc p) = true → p.Recoverable)

def CleanStep (p : JitProcess Config Analysis Generation) : Operation Config → Prop
  | .compileStaged | .compile => CleanCompile tc p
  | _ => True

def CleanRun (p : JitProcess Config Analysis Generation) : List (Operation Config) → Prop
  | [] => True
  | operation :: history => CleanStep tc p operation ∧ CleanRun (p.after tc operation) history

instance [DecidableEq Config] (p : JitProcess Config Analysis Generation) :
    Decidable p.Recoverable :=
  decidable_of_iff (p.fallback.projectRoot = p.compiler.projectRoot ∧
      p.fallback.projectSettingsApiEnabled = p.compiler.projectSettingsApiEnabled ∧
      p.fallback.paths.all p.compiler.paths.contains ∧
      p.activeProgramSnapshot.all fun snapshot =>
        snapshot.projectConfiguration = p.projectConfiguration)
    ⟨fun ⟨hroot, hsettings, hfiles, hconfiguration⟩ => ⟨hroot, hsettings, by simpa using hfiles,
        fun snapshot hs =>
          of_decide_eq_true ((Option.all_eq_true _ _).mp hconfiguration snapshot hs)⟩,
      fun h => ⟨h.projectRoot, h.settings, by simpa using h.files,
        (Option.all_eq_true _ _).mpr fun snapshot hs =>
        decide_eq_true (h.configuration snapshot hs)⟩⟩

instance [DecidableEq Config] (p : JitProcess Config Analysis Generation)
    (operation : Operation Config) : Decidable (CleanStep tc p operation) :=
  match operation with
  | .compileStaged | .compile => inferInstanceAs (Decidable (_ ∧ _))
  | .upsertFile _ _ | .retainFiles _ | .setProjectRoot _ | .setProjectConfiguration _
  | .setRequiredEmitRoots _ => .isTrue trivial

instance decidableCleanRun [DecidableEq Config] (p : JitProcess Config Analysis Generation) :
    ∀ history : List (Operation Config), Decidable (CleanRun tc p history)
  | [] => .isTrue trivial
  | operation :: history =>
    have := decidableCleanRun (p.after tc operation) history
    inferInstanceAs (Decidable (_ ∧ _))

/-- A snapshot is what the analysis of its own revision gives. -/
def Built (snapshot : ProgramSnapshot Config Analysis) : Prop :=
  let enabled := snapshot.projectConfiguration.elim false tc.generatedApiEnabled
  let generated := Compiler.generatedProjectSettingsPath ∈ snapshot.files.image SourceFile.path
  tc.analyze ⟨snapshot.files, enabled && decide generated, snapshot.requiredRoots⟩
    snapshot.projectConfiguration = .ok snapshot.analysis

structure Tracks (s : Supplied Config) (p : JitProcess Config Analysis Generation) : Prop where
  tidy : p.compiler.Tidy
  files : ∀ f, f ∈ p.compiler.files ↔ f ∈ s.files
  supplied : (s.files.map SourceFile.path).Nodup
  projectRoot : p.compiler.projectRoot = s.projectRoot
  settings : p.compiler.projectSettingsApiEnabled = s.settingsEnabled tc
  analysisRoots : p.compiler.analysisRequiredRoots = s.requiredRoots
  emitRoots : p.requiredEmitRoots = s.requiredRoots
  configuration : p.projectConfiguration = s.projectConfiguration
  snapshot : ∀ snapshot ∈ p.programSnapshot,
    Built tc snapshot ∧ snapshot.projectConfiguration = p.projectConfiguration
  activeSnapshot : ∀ snapshot ∈ p.activeProgramSnapshot, Built tc snapshot
  activeCompiler : p.fallback.Tidy

variable {tc} {s : Supplied Config} {p : JitProcess Config Analysis Generation}

variable (h : Tracks tc s p)
include h

lemma Tracks.settingsImport_eq {files : Finset SourceFile}
    (hfiles : files = p.compiler.files.toFinset) :
    (p.projectConfiguration.elim false tc.generatedApiEnabled && decide
      (generatedProjectSettingsPath ∈ files.image SourceFile.path)) =
      p.compiler.settingsImport := by
  have hmem : generatedProjectSettingsPath ∈ files.image SourceFile.path ↔
      generatedProjectSettingsPath ∈ p.compiler.paths := by
    simp [hfiles, Compiler.paths]
  rw [settingsImport, h.settings, Supplied.settingsEnabled, h.configuration,
    decide_eq_decide.mpr hmem]

omit h in
lemma check_spec (htidy : p.compiler.Tidy) (hself : p.compiler.selfContained tc = true) :
    ∃ c', p.compiler.SameSources c' ∧ c'.Tidy ∧
      ((∃ e, check tc p = .error e { p with compiler := c' }) ∨
        ∃ input, check tc p = .ok input { p with compiler := c' } ∧
          p.compiler.refreshModuleGraph tc = .ok (c', input) ∧ tc.check input = .ok ()) := by
  unfold check
  cases herror : p.compiler.pendingPathError with
  | some e =>
    refine ⟨{ p.compiler with pendingPathError := none }, ⟨fun _ => .rfl, rfl, rfl, rfl⟩,
      ⟨htidy.nodup, htidy.canonical, htidy.roots⟩, .inl ⟨e, rfl⟩⟩
  | none =>
    cases href : p.compiler.refreshModuleGraph tc with
    | error e => exact ⟨p.compiler, .refl _, htidy, .inl ⟨e, rfl⟩⟩
    | ok r =>
      obtain ⟨c', input⟩ := r
      obtain ⟨hsame, hnodup, hroots, -⟩ := refreshModuleGraph_same htidy.nodup hself href
      refine ⟨c', hsame, htidy.of_same hsame hnodup hroots, ?_⟩
      cases hcheck : tc.check input with
      | error e => exact .inl ⟨e, by simp [hcheck]⟩
      | ok u => exact .inr ⟨input, by simp [hcheck], rfl, hcheck⟩

/-- A process that holds the same program, up to the compiler's entry roots and
the order of its files. -/
def withProgram (p : JitProcess Config Analysis Generation) (c : Compiler)
    (snapshot : Option (ProgramSnapshot Config Analysis)) : JitProcess Config Analysis Generation :=
  { p with compiler := c, programSnapshot := snapshot }

structure IsCurrent (tc : Toolchain Config Analysis Generation)
    (p : JitProcess Config Analysis Generation) (snapshot : ProgramSnapshot Config Analysis) :
    Prop where
  files : snapshot.files = p.compiler.files.toFinset
  requiredRoots : snapshot.requiredRoots = p.requiredEmitRoots
  configuration : snapshot.projectConfiguration = p.projectConfiguration
  built : Built tc snapshot

variable {c' : Compiler} {snapshot : ProgramSnapshot Config Analysis}
  {q : JitProcess Config Analysis Generation} {e : String}

lemma currentSnapshot_spec (hsame : p.compiler.SameSources c')
    (hcur : ({ p with compiler := c' } : JitProcess Config Analysis Generation).currentSnapshot =
      some snapshot) :
    p.programSnapshot = some snapshot ∧ IsCurrent tc p snapshot := by
  obtain ⟨hsome, hmatch⟩ := Option.filter_eq_some_iff.mp hcur
  obtain ⟨hfiles, hroots⟩ := of_decide_eq_true hmatch
  obtain ⟨hbuilt, hconf⟩ := h.snapshot snapshot hsome
  exact ⟨hsome, hfiles.trans hsame.toFinset_eq, hroots, hconf, hbuilt⟩

lemma analyze_iff_built :
    tc.analyze ⟨p.compiler.files.toFinset, p.compiler.settingsImport, p.requiredEmitRoots⟩
      p.projectConfiguration = .ok analysis ↔
    IsCurrent tc p
      ⟨p.compiler.files.toFinset, p.requiredEmitRoots, p.projectConfiguration, analysis⟩ := by
  rw [← h.settingsImport_eq rfl]
  exact ⟨fun hana => ⟨rfl, rfl, rfl, hana⟩, IsCurrent.built⟩

/-- The front end fails without touching more than the compiler, or ends with a
snapshot of the current sources. -/
lemma frontEnd_spec (hself : p.compiler.selfContained tc = true) :
    ∃ c', p.compiler.SameSources c' ∧ c'.Tidy ∧
      ((∃ e, frontEnd tc p = .error e (p.withProgram c' p.programSnapshot)) ∨
        ∃ snapshot input, frontEnd tc p = .ok snapshot (p.withProgram c' (some snapshot)) ∧
          IsCurrent tc p snapshot ∧ p.compiler.refreshModuleGraph tc = .ok (c', input) ∧
          tc.check input = .ok ()) := by
  obtain ⟨c', hsame, htidy, hcheck⟩ := check_spec h.tidy hself
  refine ⟨c', hsame, htidy, ?_⟩
  rcases hcheck with ⟨e, hcheck⟩ | ⟨input, hcheck, href, hpas⟩
  · exact .inl ⟨e, bind_of_error hcheck⟩
  rw [frontEnd, bind_of_ok hcheck]
  have hinput := (refreshModuleGraph_same h.tidy.nodup hself href).2.2.2
  dsimp only [refreshSnapshot]
  cases hcur : ({ p with compiler := c' } :
      JitProcess Config Analysis Generation).currentSnapshot with
  | some snapshot =>
    obtain ⟨hsome, hsnap⟩ := currentSnapshot_spec h hsame hcur
    exact .inr ⟨snapshot, input, by simp only [withProgram, ← hsome], hsnap, href, hpas⟩
  | none =>
    cases hana : tc.analyze { input with requiredRoots := p.requiredEmitRoots }
        p.projectConfiguration with
    | error e => exact .inl ⟨e, rfl⟩
    | ok analysis =>
      refine .inr ⟨_, input, rfl, ?_, href, hpas⟩
      rw [hinput] at hana
      have hbuilt := (analyze_iff_built h).mp hana
      rwa [hsame.toFinset_eq]

lemma frontEnd_of_same (h' : Tracks tc s q) (hself : p.compiler.selfContained tc = true)
    (hroots : ∀ path, path ∈ q.compiler.entryRoots ↔ path ∈ q.compiler.paths)
    (herror : q.compiler.pendingPathError = none) (hnone : q.programSnapshot = none)
    (hrun : frontEnd tc p = .ok snapshot p') :
    ∃ q', frontEnd tc q = .ok snapshot q' := by
  obtain ⟨c', hsame, htidy, ⟨e, hfail⟩ | ⟨snapshot', input, hok, hcur, href, hcheck⟩⟩ :=
    frontEnd_spec h hself
  · cases hrun.symm.trans hfail
  obtain ⟨rfl, -⟩ := EStateM.Result.ok.inj (hrun.symm.trans hok)
  have hpq : p.compiler.SameSources q.compiler :=
    ⟨fun f => (h'.files f).trans (h.files f).symm, h'.projectRoot.trans h.projectRoot.symm,
      h'.settings.trans h.settings.symm, h'.analysisRoots.trans h.analysisRoots.symm⟩
  obtain ⟨hself', c₂, href'⟩ := refreshModuleGraph_of_same h.tidy.nodup h'.tidy.nodup
    hpq hself hroots href
  obtain ⟨hsame₂, -, -, -⟩ := refreshModuleGraph_same h'.tidy.nodup hself' href'
  have hinput := (refreshModuleGraph_same h.tidy.nodup hself href).2.2.2
  have hcheck' : check tc q = .ok input { q with compiler := c₂ } := by
    simp [check, herror, href', hcheck]
  have hana : tc.analyze { input with requiredRoots := q.requiredEmitRoots }
      q.projectConfiguration = .ok snapshot.analysis := by
    rw [hinput, h'.emitRoots, ← h.emitRoots, h'.configuration, ← h.configuration]
    apply (analyze_iff_built h).mpr
    rw [← hcur.files, ← hcur.requiredRoots, ← hcur.configuration]
    exact hcur
  have hsnap : (⟨c₂.files.toFinset, q.requiredEmitRoots, q.projectConfiguration,
      snapshot.analysis⟩ : ProgramSnapshot Config Analysis) = snapshot := by
    rw [hsame₂.toFinset_eq, hpq.toFinset_eq, h'.emitRoots, ← h.emitRoots, h'.configuration,
      ← h.configuration, ← hcur.files, ← hcur.requiredRoots, ← hcur.configuration]
  rw [frontEnd, bind_of_ok hcheck']
  simp only [refreshSnapshot, currentSnapshot, hnone, Option.filter_none, hana, hsnap]
  exact ⟨_, rfl⟩

/-- A compile fails with the sources still in the compiler, or ends with a
generation for a snapshot of them. -/
lemma compileInternal_spec (hself : p.compiler.selfContained tc = true) :
    ∃ c', p.compiler.SameSources c' ∧ c'.Tidy ∧
      ((∃ e o, compileInternal tc p = .error e (p.withProgram c' o)) ∨
        ∃ snapshot generation, frontEnd tc p = .ok snapshot (p.withProgram c' (some snapshot)) ∧
          IsCurrent tc p snapshot ∧
          compileInternal tc p = .ok () { p.withProgram c' (some snapshot) with
            generation := some generation
            stagedStringLiterals := tc.literals snapshot.analysis }) := by
  obtain ⟨c', hsame, htidy, ⟨e, hfail⟩ | ⟨snapshot, input, hok, hcur, -, -⟩⟩ :=
    frontEnd_spec h hself
  · exact ⟨c', hsame, htidy, .inl ⟨e, _, bind_of_error hfail⟩⟩
  refine ⟨c', hsame, htidy, ?_⟩
  rw [compileInternal, bind_of_ok hok]
  dsimp only [emit]
  cases hemit : tc.emit (p.withProgram c' (some snapshot)).generation snapshot.analysis with
  | error e => exact .inl ⟨e, some snapshot, rfl⟩
  | ok generation => exact .inr ⟨snapshot, generation, hok, hcur, rfl⟩

lemma Tracks.restored (hrec : p.Recoverable) (hsame : p.compiler.SameSources c') (htidy : c'.Tidy)
    (o : Option (ProgramSnapshot Config Analysis)) :
    let q := (p.withProgram c' o).restoreActiveCompilerWithPendingSources
    Tracks tc s q ∧ ∀ path, path ∈ q.compiler.entryRoots ↔ path ∈ s.files.map SourceFile.path := by
  intro q
  let base : Compiler := { p.fallback with analysisRequiredRoots := p.requiredEmitRoots }
  obtain ⟨hfiles, hroots, hroot, hset, hreq, -⟩ := foldl_upsertFile htidy.canonical base
  have hpaths : ∀ path, path ∈ c'.paths ↔ path ∈ s.files.map SourceFile.path := by
    intro path
    rw [hsame.mem_paths]
    simp only [Compiler.paths, mem_map, h.files]
  -- every file of the accepted compiler is overwritten by a pending one
  have hover : ∀ f ∈ base.files, f.path ∈ c'.paths := fun f hf =>
    hsame.mem_paths.mpr (hrec.files f.path (mem_map_of_mem hf))
  have hmem : ∀ f, f ∈ q.compiler.files ↔ f ∈ c'.files := by
    intro f
    show f ∈ (c'.files.foldl (fun c file => c.upsertFile file.path file.text) base).files ↔ _
    rw [hfiles, Compiler.mem_foldl_upsertLoaded htidy.nodup]
    exact ⟨fun hf => hf.elim id fun hf => absurd (hover f hf.1) hf.2, .inl⟩
  have hentry : ∀ path, path ∈ q.compiler.entryRoots ↔ path ∈ c'.paths := by
    intro path
    refine (hroots path).trans ⟨fun hpath => hpath.elim (fun hpath => ?_) id, .inr⟩
    exact hsame.mem_paths.mpr (hrec.files path (h.activeCompiler.roots path hpath))
  refine ⟨{ tidy := ⟨?_, ?_, ?_⟩, files := ?_, supplied := h.supplied, projectRoot := ?_,
            settings := ?_, analysisRoots := ?_, emitRoots := h.emitRoots,
            configuration := h.configuration, snapshot := ?_, activeSnapshot := h.activeSnapshot,
            activeCompiler := h.activeCompiler }, fun path => (hentry path).trans (hpaths path)⟩
  · show (Compiler.paths _).Nodup
    rw [Compiler.paths, show q.compiler.files = _ from hfiles]
    exact nodup_foldl_upsertLoaded h.activeCompiler.nodup _
  · intro f hf
    exact htidy.canonical f ((hmem f).mp hf)
  · intro path hpath
    obtain ⟨f, hf, rfl⟩ := mem_map.mp ((hentry path).mp hpath)
    exact mem_map_of_mem ((hmem f).mpr hf)
  · intro f
    rw [hmem, hsame.files, h.files]
  · exact hroot.trans (hrec.projectRoot.trans h.projectRoot)
  · exact hset.trans (hrec.settings.trans h.settings)
  · exact hreq.trans h.emitRoots
  · intro snapshot hsnap
    exact ⟨h.activeSnapshot snapshot hsnap, hrec.configuration snapshot hsnap⟩

lemma compileStaged_spec (hclean : CleanCompile tc p) :
    (∃ e q, compileStaged tc p = .error e q ∧ Tracks tc s q ∧
      ∀ path, path ∈ q.compiler.entryRoots ↔ path ∈ s.files.map SourceFile.path) ∨
    ∃ c' snapshot generation, compileStaged tc p = .ok () { p.withProgram c' (some snapshot) with
        generation := some generation
        stagedStringLiterals := tc.literals snapshot.analysis
        activeCompiler := some c'
        activeProgramSnapshot := some snapshot
        activeStringLiterals := tc.literals snapshot.analysis } ∧
      p.compiler.SameSources c' ∧ c'.Tidy ∧ IsCurrent tc p snapshot ∧
      frontEnd tc p = .ok snapshot (p.withProgram c' (some snapshot)) := by
  obtain ⟨c', hsame, htidy, ⟨e, o, hfail⟩ | ⟨snapshot, generation, hfront, hcur, hok⟩⟩ :=
    compileInternal_spec h hclean.1
  · left
    have hsta : compileStaged tc p =
        .error e (p.withProgram c' o).restoreActiveCompilerWithPendingSources := by
      simp only [compileStaged, hfail]
    have hrec : p.Recoverable := hclean.2 (by rw [hsta]; rfl)
    exact ⟨e, _, hsta, h.restored hrec hsame htidy o⟩
  · right
    refine ⟨c', snapshot, generation, ?_, hsame, htidy, hcur, hfront⟩
    simp only [compileStaged, hok]
    rfl

lemma Tracks.accepted (hsame : p.compiler.SameSources c') (htidy : c'.Tidy)
    (hcur : IsCurrent tc p snapshot) (generation : Generation) (literals : List (Int × String)) :
    Tracks tc s { p.withProgram c' (some snapshot) with
      generation := some generation
      stagedStringLiterals := literals
      activeCompiler := some c'
      activeProgramSnapshot := some snapshot
      activeStringLiterals := literals } where
  tidy := htidy
  files f := (hsame.files f).trans (h.files f)
  supplied := h.supplied
  projectRoot := hsame.projectRoot.trans h.projectRoot
  settings := hsame.settings.trans h.settings
  analysisRoots := hsame.requiredRoots.trans h.analysisRoots
  emitRoots := h.emitRoots
  configuration := h.configuration
  snapshot := by
    rintro _ ⟨⟩
    exact ⟨hcur.built, hcur.configuration⟩
  activeSnapshot := by
    rintro _ ⟨⟩
    exact hcur.built
  activeCompiler := htidy

lemma compile_spec (hclean : CleanCompile tc p) :
    (∃ e, compile tc p = .error e p) ∨ (∃ e q, compileStaged tc p = .error e q ∧
      compile tc p = .error e q) ∨
    ∃ q, compileStaged tc p = .ok () q ∧ compile tc p = .ok () q := by
  rcases compileStaged_spec h hclean with ⟨e, q, hfail, -⟩ | ⟨c', snapshot, generation, hok, -⟩
  · exact .inr (.inl ⟨e, q, hfail, by simp only [compile, hfail]⟩)
  simp only [compile, hok]
  split
  · exact .inr (.inr ⟨_, rfl, rfl⟩)
  · exact .inl ⟨_, rfl⟩

omit h in
lemma tracks_new : Tracks tc {} ({} : JitProcess Config Analysis Generation) where
  tidy := tidy_empty
  files _ := .rfl
  supplied := .nil
  projectRoot := rfl
  settings := rfl
  analysisRoots := rfl
  emitRoots := rfl
  configuration := rfl
  snapshot := by rintro _ ⟨⟩
  activeSnapshot := by rintro _ ⟨⟩
  activeCompiler := tidy_empty

lemma Tracks.upsertFile (path : SourcePath) (text : String) :
    Tracks tc (s.after (.upsertFile path text)) (p.upsertFile path text) := by
  simp only [Supplied.after, JitProcess.upsertFile, Compiler.upsertFile, h.projectRoot]
  rcases hpath : SourcePath.canonicalSourcePath s.projectRoot path with _ | path
  · exact { h with tidy := ⟨h.tidy.nodup, h.tidy.canonical, h.tidy.roots⟩, projectRoot := rfl }
  have hmem : ∀ f, f ∈ Compiler.upsertLoaded p.compiler.files ⟨path, text⟩ ↔
      f ∈ Compiler.upsertLoaded s.files ⟨path, text⟩ := fun f => by
    simp only [mem_upsertLoaded, h.files]
  have hcan : ∀ f ∈ Compiler.upsertLoaded p.compiler.files ⟨path, text⟩, f.path.Canonical := by
    intro f hf
    rcases mem_upsertLoaded.mp hf with rfl | ⟨hf, -⟩
    · exact (SourcePath.canonicalSourcePath_spec hpath).1
    · exact h.tidy.canonical f hf
  refine { h with
    tidy := ⟨Compiler.nodup_upsertLoaded h.tidy.nodup _, hcan, ?_⟩
    files := hmem
    supplied := Compiler.nodup_upsertLoaded h.supplied _
    projectRoot := rfl }
  intro root hroot
  refine mem_map.mpr ?_
  rcases mem_insertRoot.mp hroot with rfl | hroot
  · exact ⟨_, mem_upsertLoaded.mpr (.inl rfl), rfl⟩
  · by_cases heq : root = path
    · exact ⟨_, mem_upsertLoaded.mpr (.inl rfl), heq.symm⟩
    · obtain ⟨f, hf, rfl⟩ := mem_map.mp (h.tidy.roots root hroot)
      exact ⟨f, mem_upsertLoaded.mpr (.inr ⟨hf, heq⟩), rfl⟩

lemma Tracks.retainFiles (paths : List SourcePath) :
    Tracks tc (s.after (.retainFiles paths)) (p.retainFiles paths) := by
  simp only [Supplied.after, JitProcess.retainFiles, Compiler.retainFiles, h.projectRoot]
  refine { h with tidy := ⟨?_, ?_, ?_⟩, files := ?_, supplied := ?_, projectRoot := rfl }
  · exact h.tidy.nodup.sublist (List.Sublist.map _ filter_sublist)
  · intro f hf
    exact h.tidy.canonical f (mem_filter.mp hf).1
  · intro path hpath
    obtain ⟨hroot, hkept⟩ := mem_filter.mp hpath
    obtain ⟨f, hf, rfl⟩ := mem_map.mp (h.tidy.roots path hroot)
    exact mem_map_of_mem (mem_filter.mpr ⟨hf, hkept⟩)
  · intro f
    simp only [mem_filter, h.files, contains_eq_mem]
  · exact h.supplied.sublist (List.Sublist.map _ filter_sublist)

lemma Tracks.setProjectRoot (root : SourcePath) :
    Tracks tc (s.after (.setProjectRoot root)) (p.setProjectRoot root) := by
  simp only [Supplied.after, JitProcess.setProjectRoot, Compiler.setProjectRoot]
  cases Compiler.checkedProjectRoot root with
  | error e => exact h
  | ok root =>
    exact { h with tidy := ⟨h.tidy.nodup, h.tidy.canonical, h.tidy.roots⟩, projectRoot := rfl }

lemma Tracks.setProjectConfiguration (configuration : Config) :
    Tracks tc (s.after (.setProjectConfiguration configuration))
      (p.setProjectConfiguration tc configuration) :=
  { h with
    tidy := ⟨h.tidy.nodup, h.tidy.canonical, h.tidy.roots⟩
    settings := rfl
    configuration := rfl
    snapshot := by rintro _ ⟨⟩ }

lemma Tracks.setRequiredEmitRoots (roots : Finset String) :
    Tracks tc (s.after (.setRequiredEmitRoots roots)) (p.setRequiredEmitRoots roots) :=
  { h with
    tidy := ⟨h.tidy.nodup, h.tidy.canonical, h.tidy.roots⟩
    analysisRoots := rfl
    emitRoots := rfl }

variable (operation : Operation Config)

omit h in
lemma after_of_ok (h : apply tc operation p = .ok () q) : p.after tc operation = q := by
  rw [after, h]

omit h in
lemma after_of_error (h : apply tc operation p = .error e q) : p.after tc operation = q := by
  rw [after, h]

lemma Tracks.compileStaged (hclean : CleanCompile tc p) :
    Tracks tc s (p.after tc .compileStaged) := by
  rcases compileStaged_spec h hclean with
    ⟨e, q, hfail, hq, -⟩ | ⟨c', snapshot, generation, hok, hsame, htidy, hcur, -⟩
  · rwa [after_of_error .compileStaged hfail]
  · rw [after_of_ok .compileStaged hok]
    exact h.accepted hsame htidy hcur _ _

lemma Tracks.compile (hclean : CleanCompile tc p) : Tracks tc s (p.after tc .compile) := by
  have hsta := h.compileStaged hclean
  rcases compile_spec h hclean with ⟨e, hfail⟩ | ⟨e, q, hstage, hfail⟩ | ⟨q, hstage, hok⟩
  · rwa [after_of_error .compile hfail]
  · rwa [after_of_error .compile hfail, ← after_of_error .compileStaged hstage]
  · rwa [after_of_ok .compile hok, ← after_of_ok .compileStaged hstage]

lemma Tracks.step {operation : Operation Config}
    (hclean : CleanStep tc p operation) : Tracks tc (s.after operation) (p.after tc operation) := by
  cases operation with
  | upsertFile path text => exact h.upsertFile path text
  | retainFiles paths => exact h.retainFiles paths
  | setProjectRoot root => exact h.setProjectRoot root
  | setProjectConfiguration configuration => exact h.setProjectConfiguration configuration
  | setRequiredEmitRoots roots => exact h.setRequiredEmitRoots roots
  | compileStaged => exact h.compileStaged hclean
  | compile => exact h.compile hclean

lemma Tracks.run {history : List (Operation Config)} (hclean : CleanRun tc p history) :
    Tracks tc (history.foldl Supplied.after s) (p.run tc history) := by
  induction history generalizing s p with
  | nil => exact h
  | cons operation history ih => exact ih (h.step hclean.1) hclean.2

omit h in
lemma cleanRun_concat {history : List (Operation Config)} {operation : Operation Config} :
    CleanRun tc p (history ++ [operation]) ↔
      CleanRun tc p history ∧ CleanStep tc (p.run tc history) operation := by
  induction history generalizing p with
  | nil => simp [CleanRun, JitProcess.run]
  | cons first history ih =>
    rw [cons_append, CleanRun, CleanRun, ih, and_assoc]
    rfl

lemma Tracks.fresh :
    Tracks tc s (s.fresh tc) ∧
      (∀ path, path ∈ (s.fresh tc).compiler.entryRoots ↔ path ∈ (s.fresh tc).compiler.paths) ∧
      (s.fresh tc).compiler.pendingPathError = none := by
  have hcan : ∀ f ∈ s.files, f.path.Canonical := fun f hf => h.tidy.canonical f ((h.files f).mpr hf)
  obtain ⟨hfiles, hroots, hroot, hset, hreq, herror⟩ :=
    foldl_upsertFile hcan
      { projectRoot := s.projectRoot, projectSettingsApiEnabled := s.settingsEnabled tc
        analysisRequiredRoots := s.requiredRoots }
  have hmem : ∀ f, f ∈ (s.fresh tc).compiler.files ↔ f ∈ s.files := by
    intro f
    show f ∈ Compiler.files (foldl _ _ _) ↔ _
    rw [hfiles, Compiler.mem_foldl_upsertLoaded h.supplied]
    simp
  have hentry : ∀ path, path ∈ (s.fresh tc).compiler.entryRoots ↔
      path ∈ (s.fresh tc).compiler.paths := by
    intro path
    refine (hroots path).trans ?_
    simp only [Compiler.paths, mem_map, hmem, not_mem_nil, false_or]
  have hnodup : (s.fresh tc).compiler.paths.Nodup := by
    show (Compiler.paths (foldl _ _ _)).Nodup
    rw [Compiler.paths, hfiles]
    apply nodup_foldl_upsertLoaded
    exact nodup_nil
  refine ⟨?_, hentry, herror⟩
  exact {
    tidy := ⟨hnodup, fun f hf => hcan f ((hmem f).mp hf), fun path => (hentry path).mp⟩
    files := hmem
    supplied := h.supplied
    projectRoot := hroot
    settings := hset
    analysisRoots := hreq
    emitRoots := rfl
    configuration := rfl
    snapshot := by rintro _ ⟨⟩
    activeSnapshot := by rintro _ ⟨⟩
    activeCompiler := tidy_empty }

def accepted (p : JitProcess Config Analysis Generation) :
    Option Generation × Option Compiler × Option (ProgramSnapshot Config Analysis) ×
      List (Int × String) :=
  (p.generation, p.activeCompiler, p.activeProgramSnapshot, p.activeStringLiterals)

omit h

lemma keeps_check : Keeps accepted (check tc) := by
  intro p
  unfold check
  repeat' split
  all_goals rfl

lemma keeps_refreshSnapshot (input : ProgramInput) : Keeps accepted (refreshSnapshot tc input) := by
  intro p
  unfold refreshSnapshot
  repeat' split
  all_goals rfl

lemma keeps_frontEnd : Keeps accepted (frontEnd tc) := keeps_check.bind keeps_refreshSnapshot

lemma accepted_of_compileInternal_error (h : compileInternal tc p = .error e q) :
    q.accepted = p.accepted := by
  have hkeeps : (finalState (frontEnd tc p)).accepted = p.accepted := keeps_frontEnd p
  cases hfront : frontEnd tc p with
  | error e' q' =>
    rw [compileInternal, bind_of_error hfront] at h
    cases h
    rwa [hfront] at hkeeps
  | ok snapshot q' =>
    rw [compileInternal, bind_of_ok hfront, emit] at h
    rw [hfront] at hkeeps
    split at h <;> cases h
    exact hkeeps

lemma accepted_of_compileStaged_error (h : compileStaged tc p = .error e q) :
    q.accepted = p.accepted := by
  unfold compileStaged at h
  split at h
  · cases h
  next q' hfail =>
    cases h
    exact (rfl : _ = q'.accepted).trans (accepted_of_compileInternal_error hfail)

lemma accepted_of_compile_error (h : compile tc p = .error e q) : q.accepted = p.accepted := by
  unfold compile at h
  split at h
  next hfail =>
    cases h
    exact accepted_of_compileStaged_error hfail
  next =>
    split at h <;> cases h
    rfl

end JitProcess

def Operation.isCompile {Config : Type} : Operation Config → Bool
  | .compileStaged | .compile => true
  | _ => false

namespace JitProcess

variable {Config Analysis Generation : Type} {tc : Toolchain Config Analysis Generation}
  {s : Supplied Config} {p : JitProcess Config Analysis Generation}

variable {operation : Operation Config}

lemma accepted_after (h : operation.isCompile = true → failed (apply tc operation p) = true) :
    (p.after tc operation).accepted = p.accepted := by
  cases operation with
  | compileStaged =>
    cases hrun : apply tc .compileStaged p with
    | ok u q => simp [hrun, failed, Operation.isCompile] at h
    | error e q =>
      rw [after_of_error _ hrun]
      exact accepted_of_compileStaged_error hrun
  | compile =>
    cases hrun : apply tc .compile p with
    | ok u q => simp [hrun, failed, Operation.isCompile] at h
    | error e q =>
      rw [after_of_error _ hrun]
      exact accepted_of_compile_error hrun
  | _ => rfl

lemma Tracks.entryRoots_of_failed (h : Tracks tc s p) (hclean : CleanStep tc p operation)
    (hfail : failed (apply tc operation p) = true) :
    p.after tc operation = p ∨ ∀ path,
      path ∈ (p.after tc operation).compiler.entryRoots ↔ path ∈ s.files.map SourceFile.path := by
  cases operation with
  | compileStaged =>
    rcases compileStaged_spec h hclean with ⟨e, q, hrun, -, hroots⟩ | ⟨_, _, _, hrun, -⟩
    · rw [after_of_error .compileStaged hrun]
      exact .inr hroots
    · simp [apply, hrun, failed] at hfail
  | compile =>
    rcases compile_spec h hclean with ⟨e, hrun⟩ | ⟨e, q, hstage, hrun⟩ | ⟨q, -, hrun⟩
    · exact .inl (after_of_error .compile hrun)
    · rw [after_of_error .compile hrun]
      rcases compileStaged_spec h hclean with ⟨e', q', hrun', -, hroots⟩ | ⟨_, _, _, hrun', -⟩
      · cases hstage.symm.trans hrun'
        exact .inr hroots
      · cases hstage.symm.trans hrun'
    · simp [apply, hrun, failed] at hfail
  | _ => exact absurd hfail Bool.false_ne_true

lemma Tracks.snapshot_of_accepted (h : Tracks tc s p) (hcom : operation.isCompile = true)
    (hclean : CleanStep tc p operation) (hok : failed (apply tc operation p) = false) :
    ∃ snapshot, (p.after tc operation).activeProgramSnapshot = some snapshot ∧
      ∃ q, frontEnd tc (s.fresh tc) = .ok snapshot q := by
  -- a successful compile is a successful staged compile
  have hsta : CleanCompile tc p ∧ failed (JitProcess.compileStaged tc p) = false ∧
      p.after tc operation = p.after tc .compileStaged := by
    cases operation with
    | compileStaged => exact ⟨hclean, hok, rfl⟩
    | compile =>
      rcases compile_spec h hclean with ⟨e, hrun⟩ | ⟨e, q, -, hrun⟩ | ⟨q, hstage, hrun⟩
      · simp [apply, hrun, failed] at hok
      · simp [apply, hrun, failed] at hok
      · exact ⟨hclean, by rw [hstage]; rfl,
          (after_of_ok .compile hrun).trans (after_of_ok .compileStaged hstage).symm⟩
    | _ => exact absurd hcom Bool.false_ne_true
  obtain ⟨hclean', hok', hafter⟩ := hsta
  rcases compileStaged_spec h hclean' with
    ⟨e, q, hrun, -⟩ | ⟨c', snapshot, generation, hrun, -, -, -, hfront⟩
  · simp [hrun, failed] at hok'
  rw [hafter, after_of_ok .compileStaged hrun]
  obtain ⟨hfresh, hroots, herror⟩ := h.fresh
  exact ⟨snapshot, rfl, frontEnd_of_same h hfresh hclean'.1 hroots herror rfl hfront⟩

/-- After any history of calls whose compiles are clean, and one more call: unless
the call is a successful compile the accepted program is unchanged; the process
holds exactly what the caller supplied; a failed compile leaves every supplied
file an entry root, or nothing changed at all; and a successful compile accepts
the program a fresh process builds from the same sources. -/
theorem failed_compiles_leave_no_trace (tc : Toolchain Config Analysis Generation)
    (history : List (Operation Config)) (operation : Operation Config)
    (hclean : CleanRun tc {} (history ++ [operation])) :
    let p := run tc {} history
    let q := p.after tc operation
    let s := (Supplied.of history).after operation
    ((operation.isCompile = true → failed (apply tc operation p) = true) →
        q.accepted = p.accepted) ∧
      Tracks tc s q ∧
      (failed (apply tc operation p) = true → q = p ∨
        ∀ path, path ∈ q.compiler.entryRoots ↔ path ∈ s.files.map SourceFile.path) ∧
      (operation.isCompile = true → failed (apply tc operation p) = false →
        ∃ snapshot, q.activeProgramSnapshot = some snapshot ∧
          ∃ q', frontEnd tc (s.fresh tc) = .ok snapshot q') := by
  intro p q s
  obtain ⟨hrun, hstep⟩ := cleanRun_concat.mp hclean
  have hp : Tracks tc (Supplied.of history) p := tracks_new.run hrun
  refine ⟨accepted_after, hp.step hstep, fun hfail => ?_, fun hcompile hok => ?_⟩
  · cases operation with
    | compileStaged | compile => exact hp.entryRoots_of_failed hstep hfail
    | _ => exact absurd hfail Bool.false_ne_true
  · cases operation with
    | compileStaged | compile => exact hp.snapshot_of_accepted rfl hstep hok
    | _ => exact absurd hcompile Bool.false_ne_true

/-- A toolchain whose programs are their files; the text `bad` does not parse. -/
def demo : Toolchain Unit ProgramInput ProgramInput where
  disk _ := []
  parseImports _ text := if text = "bad" then .error "expected an item" else .ok []
  generatedApiEnabled _ := false
  validateModules _ := .ok ()
  check _ := .ok ()
  analyze input _ := .ok input
  emit _ analysis := .ok analysis
  literals _ := []
  activate _ := .ok ()

def correctedEdit : List (Operation Unit) :=
  [.upsertFile "a".toList "first", .upsertFile "b".toList "other", .compileStaged,
    .upsertFile "a".toList "bad", .compileStaged, .upsertFile "a".toList "second"]

theorem compile_after_corrected_edit :
    ∃ snapshot, ((run demo {} correctedEdit).after demo .compileStaged).activeProgramSnapshot =
        some snapshot ∧
      ∃ q', frontEnd demo (Supplied.fresh demo ((Supplied.of correctedEdit).after .compileStaged)) =
        .ok snapshot q' :=
  (failed_compiles_leave_no_trace demo correctedEdit .compileStaged (by decide +kernel)).2.2.2 rfl
    (by decide +kernel)

def editAfterRemoval : List (Operation Unit) :=
  [.upsertFile "a".toList "first", .upsertFile "b".toList "other", .compileStaged,
    .retainFiles ["a".toList], .upsertFile "a".toList "bad"]

/-- A file removed by `retain_files` is back, and is an entry root again, after the
next compile fails; so it is part of what the next successful compile builds. -/
theorem removed_file_returns :
    let p := run demo {} editAfterRemoval
    let q := p.after demo .compileStaged
    failed (apply demo .compileStaged p) = true ∧
      (Supplied.of editAfterRemoval).files = [⟨"a".toList, "bad"⟩] ∧
      p.compiler.files = [⟨"a".toList, "bad"⟩] ∧
      q.compiler.files = [⟨"a".toList, "bad"⟩, ⟨"b".toList, "other"⟩] ∧
      "b".toList ∈ q.compiler.entryRoots ∧
      (run demo q [.upsertFile "a".toList "second", .compileStaged]).generation.map
        ProgramInput.files = some {⟨"a".toList, "second"⟩, ⟨"b".toList, "other"⟩} := by
  decide +kernel

end JitProcess

end Stasis.Jit

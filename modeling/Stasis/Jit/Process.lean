import Stasis.Jit.Sources

namespace Stasis.Jit

/-- A `ProgramSnapshot`: the analysis of one revision under one configuration. -/
structure ProgramSnapshot (Config Analysis : Type) where
  files : Finset SourceFile
  requiredRoots : Finset String
  projectConfiguration : Option Config
  analysis : Analysis
deriving DecidableEq

/-- `generation` is all that an accepted compile replaces as a whole: artifacts,
generation metadata, accepted program, lowering references and contracts. -/
structure JitProcess (Config Analysis Generation : Type) where
  compiler : Compiler := {}
  activeCompiler : Option Compiler := none
  generation : Option Generation := none
  programSnapshot : Option (ProgramSnapshot Config Analysis) := none
  activeProgramSnapshot : Option (ProgramSnapshot Config Analysis) := none
  projectConfiguration : Option Config := none
  stagedStringLiterals : List (Int × String) := []
  activeStringLiterals : List (Int × String) := []
  requiredEmitRoots : Finset String := ∅

namespace JitProcess

variable {Config Analysis Generation : Type} (tc : Toolchain Config Analysis Generation)

def upsertFile (p : JitProcess Config Analysis Generation) (path : SourcePath) (text : String) :
    JitProcess Config Analysis Generation :=
  { p with compiler := p.compiler.upsertFile path text }

def retainFiles (p : JitProcess Config Analysis Generation) (paths : List SourcePath) :
    JitProcess Config Analysis Generation :=
  { p with compiler := p.compiler.retainFiles paths }

def setProjectRoot (p : JitProcess Config Analysis Generation) (root : SourcePath) :
    JitProcess Config Analysis Generation :=
  { p with compiler := p.compiler.setProjectRoot root }

def setProjectConfiguration (p : JitProcess Config Analysis Generation) (configuration : Config) :
    JitProcess Config Analysis Generation :=
  { p with
    compiler := { p.compiler with
      projectSettingsApiEnabled := tc.generatedApiEnabled configuration }
    projectConfiguration := some configuration
    programSnapshot := none }

def setRequiredEmitRoots (p : JitProcess Config Analysis Generation) (roots : Finset String) :
    JitProcess Config Analysis Generation :=
  { p with
    requiredEmitRoots := roots
    compiler := { p.compiler with analysisRequiredRoots := roots } }

abbrev ProcessM (Config Analysis Generation : Type) :=
  EStateM String (JitProcess Config Analysis Generation)

def check : ProcessM Config Analysis Generation ProgramInput := fun p =>
  match p.compiler.pendingPathError with
  | some e => .error e { p with compiler := { p.compiler with pendingPathError := none } }
  | none =>
    match p.compiler.refreshModuleGraph tc with
    | .error e => .error e p
    | .ok (compiler, input) =>
      match tc.check input with
      | .error e => .error e { p with compiler }
      | .ok () => .ok input { p with compiler }

/-- The snapshot at hand, if it is of the current revision. -/
def currentSnapshot (p : JitProcess Config Analysis Generation) :
    Option (ProgramSnapshot Config Analysis) :=
  p.programSnapshot.filter fun snapshot =>
    snapshot.files = p.compiler.files.toFinset ∧ snapshot.requiredRoots = p.requiredEmitRoots

def refreshSnapshot (input : ProgramInput) :
    ProcessM Config Analysis Generation (ProgramSnapshot Config Analysis) := fun p =>
  match p.currentSnapshot with
  | some snapshot => .ok snapshot p
  | none =>
    match tc.analyze { input with requiredRoots := p.requiredEmitRoots } p.projectConfiguration with
    | .error e => .error e p
    | .ok analysis =>
      let snapshot := ⟨p.compiler.files.toFinset, p.requiredEmitRoots, p.projectConfiguration,
        analysis⟩
      .ok snapshot { p with programSnapshot := some snapshot }

def frontEnd : ProcessM Config Analysis Generation (ProgramSnapshot Config Analysis) := do
  let input ← check tc
  refreshSnapshot tc input

def emit (snapshot : ProgramSnapshot Config Analysis) : ProcessM Config Analysis Generation Unit :=
  fun p =>
    match tc.emit p.generation snapshot.analysis with
    | .error e => .error e p
    | .ok generation => .ok () { p with
        generation := some generation
        stagedStringLiterals := tc.literals snapshot.analysis }

def compileInternal : ProcessM Config Analysis Generation Unit := do
  let snapshot ← frontEnd tc
  emit tc snapshot

/-- Put the pending files into a clone of the accepted compiler. -/
def restoreActiveCompilerWithPendingSources (p : JitProcess Config Analysis Generation) :
    JitProcess Config Analysis Generation :=
  let base := { p.activeCompiler.getD {} with analysisRequiredRoots := p.requiredEmitRoots }
  { p with
    compiler := p.compiler.files.foldl (fun c file => c.upsertFile file.path file.text) base
    programSnapshot := p.activeProgramSnapshot
    stagedStringLiterals := p.activeStringLiterals }

def compileStaged : ProcessM Config Analysis Generation Unit := fun p =>
  match compileInternal tc p with
  | .ok _ p => .ok () { p with
      activeCompiler := some p.compiler
      activeProgramSnapshot := p.programSnapshot
      activeStringLiterals := p.stagedStringLiterals }
  | .error e p => .error e p.restoreActiveCompilerWithPendingSources

/-- `activate_staged_runtime` on the snapshot just compiled. -/
def activate (p : JitProcess Config Analysis Generation) : Except String Unit :=
  match p.programSnapshot with
  | some snapshot => tc.activate snapshot.analysis
  | none => .ok ()

/-- A compile whose activation fails puts everything back as it was. -/
def compile : ProcessM Config Analysis Generation Unit := fun p =>
  match compileStaged tc p with
  | .error e p' => .error e p'
  | .ok _ p' =>
    match p'.activate tc with
    | .ok () => .ok () p'
    | .error e => .error e { p' with
        compiler := p.compiler
        programSnapshot := p.programSnapshot
        generation := p.generation
        stagedStringLiterals := p.stagedStringLiterals
        activeCompiler := p.activeCompiler
        activeProgramSnapshot := p.activeProgramSnapshot
        activeStringLiterals := p.activeStringLiterals }

end JitProcess

inductive Operation (Config : Type)
  | upsertFile (path : SourcePath) (text : String)
  | retainFiles (paths : List SourcePath)
  | setProjectRoot (root : SourcePath)
  | setProjectConfiguration (configuration : Config)
  | setRequiredEmitRoots (roots : Finset String)
  | compileStaged
  | compile

namespace JitProcess

variable {Config Analysis Generation : Type} (tc : Toolchain Config Analysis Generation)

def apply : Operation Config → ProcessM Config Analysis Generation Unit
  | .upsertFile path text => modify fun p => p.upsertFile path text
  | .retainFiles paths => modify fun p => p.retainFiles paths
  | .setProjectRoot root => modify fun p => p.setProjectRoot root
  | .setProjectConfiguration configuration =>
    modify fun p => p.setProjectConfiguration tc configuration
  | .setRequiredEmitRoots roots => modify fun p => p.setRequiredEmitRoots roots
  | .compileStaged => compileStaged tc
  | .compile => compile tc

/-- The process a call leaves behind, whether it succeeds or not. -/
def after (p : JitProcess Config Analysis Generation) (operation : Operation Config) :
    JitProcess Config Analysis Generation :=
  match apply tc operation p with
  | .ok _ p => p
  | .error _ p => p

def run (p : JitProcess Config Analysis Generation) (history : List (Operation Config)) :
    JitProcess Config Analysis Generation :=
  history.foldl (after tc) p

end JitProcess

end Stasis.Jit

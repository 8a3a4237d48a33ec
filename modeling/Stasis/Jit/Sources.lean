import Mathlib
import Stasis.Jit.SourcePath
import Stasis.Lib.Closure

namespace Stasis.Jit

structure SourceFile where
  path : SourcePath
  /-- `original_content`: the text as the user wrote it. -/
  text : String
deriving DecidableEq

/-- The part of a `Compiler` that decides what is compiled.  Its indexes and
caches are rebuilt from this on every check. -/
structure Compiler where
  files : List SourceFile := []
  /-- A set, in no particular order. -/
  entryRoots : List SourcePath := []
  projectRoot : Option SourcePath := none
  pendingPathError : Option String := none
  projectSettingsApiEnabled : Bool := false
  analysisRequiredRoots : Finset String := ∅
deriving DecidableEq

structure ProgramInput where
  files : Finset SourceFile
  /-- Every module imports the generated project settings. -/
  settingsImport : Bool
  requiredRoots : Finset String
deriving DecidableEq

/-- What a compile calls: the disk below a project root, the import parser with
its source policy, the passes over a loaded program, and the backend. -/
structure Toolchain (Config Analysis Generation : Type) where
  disk : SourcePath → List (SourcePath × String)
  parseImports : SourcePath → String → Except String (List SourcePath)
  generatedApiEnabled : Config → Bool
  validateModules : ProgramInput → Except String Unit
  check : ProgramInput → Except String Unit
  analyze : ProgramInput → Option Config → Except String Analysis
  /-- Code generation against the last accepted generation. -/
  emit : Option Generation → Analysis → Except String Generation
  literals : Analysis → List (Int × String)
  activate : Analysis → Except String Unit

namespace Compiler

variable {Config Analysis Generation : Type}

def generatedProjectSettingsPath : SourcePath :=
  ".stasis/generated/__stasis_project_settings_v1.stasis".toList

def paths (c : Compiler) : List SourcePath := c.files.map SourceFile.path

def upsertLoaded (files : List SourceFile) (file : SourceFile) : List SourceFile :=
  if file.path ∈ files.map SourceFile.path then
    files.map fun f => if f.path = file.path then file else f
  else files ++ [file]

def insertRoot (roots : List SourcePath) (path : SourcePath) : List SourcePath :=
  if path ∈ roots then roots else path :: roots

def upsertFile (c : Compiler) (path : SourcePath) (text : String) : Compiler :=
  match SourcePath.canonicalSourcePath c.projectRoot path with
  | .error e => { c with pendingPathError := some e }
  | .ok path => { c with
      entryRoots := insertRoot c.entryRoots path
      files := upsertLoaded c.files ⟨path, text⟩ }

def canonicalPaths (projectRoot : Option SourcePath) (paths : List SourcePath) : List SourcePath :=
  paths.filterMap fun path => (SourcePath.canonicalSourcePath projectRoot path).toOption

def retainFiles (c : Compiler) (paths : List SourcePath) : Compiler :=
  let normalized := canonicalPaths c.projectRoot paths
  { c with
    files := c.files.filter fun file => file.path ∈ normalized
    entryRoots := c.entryRoots.filter fun path => path ∈ normalized }

/-- The root `set_project_root` stores, or why it refuses one. -/
def checkedProjectRoot (root : SourcePath) : Except String SourcePath :=
  let root := root.replaceBackslash
  let unc := "UNC project roots are not supported: '" ++ root.display ++ "'"
  if "//?/UNC/".toList.isPrefixOf root.toAsciiUppercase then .error unc
  else
    let root := SourcePath.stripVerbatim root
    if root.head? ≠ some '/' ∧ root[1]? ≠ some ':' then
      .error ("project root must be absolute: '" ++ root.display ++ "'")
    else if ['/', '/'].isPrefixOf root then
      .error ("UNC project roots are not supported: '" ++ root.display ++ "'")
    else .ok root

def setProjectRoot (c : Compiler) (root : SourcePath) : Compiler :=
  match checkedProjectRoot root with
  | .error _ => c
  | .ok root => { c with projectRoot := some root }

variable (tc : Toolchain Config Analysis Generation) (c : Compiler)

def findText (path : SourcePath) : Option String :=
  (c.files.find? fun file => file.path = path).map SourceFile.text

def missingModule (path : SourcePath) (message : String) : String :=
  "missing imported module '" ++ path.display ++ "': " ++ message

def diskFiles : List (SourcePath × String) :=
  match c.projectRoot with
  | some root => tc.disk root
  | none => []

/-- A module's source: a file of the compiler, else one below the project root. -/
def loadSource (path : SourcePath) : Except String String :=
  match c.findText path with
  | some text => .ok text
  | none =>
    if c.projectRoot = none then .error (missingModule path "compiler project root is not set")
    else match (c.diskFiles tc).lookup path with
    | some text => .ok text
    | none => .error (missingModule path "cannot read the file")

def settingsImport : Bool :=
  c.projectSettingsApiEnabled && (generatedProjectSettingsPath ∈ c.paths)

/-- The imports of a module, with the generated settings where they apply. -/
def moduleImports (path : SourcePath) (text : String) : Except String (List SourcePath) :=
  match tc.parseImports path text with
  | .error e => .error e
  | .ok imports =>
    if c.settingsImport ∧ path ≠ generatedProjectSettingsPath ∧
        generatedProjectSettingsPath ∉ imports then
      .ok (imports ++ [generatedProjectSettingsPath])
    else .ok imports

/-- Load one module: its text and imports, and the modules to load next. -/
def visitModule (path : SourcePath) :
    Except String ((String × List SourcePath) × List SourcePath) :=
  match c.loadSource tc path with
  | .error e => .error e
  | .ok text =>
    match c.moduleImports tc path text with
    | .error e => .error e
    | .ok imports => .ok ((text, imports), imports)

def loadablePaths : List SourcePath := c.paths ++ (c.diskFiles tc).map Prod.fst

/-- `ModuleGraph::load`, without the checks on the whole graph. -/
def loadModules : Except String (List (SourcePath × String × List SourcePath)) :=
  closureLoop (c.visitModule tc) "import closure is not finite"
    (workLeft (c.visitModule tc) (c.loadablePaths tc) c.entryRoots []) c.entryRoots []

def moduleFiles (modules : List (SourcePath × String × List SourcePath)) : List SourceFile :=
  modules.map fun entry => ⟨entry.1, entry.2.1⟩

/-- The program made of these files, seen with the compiler's settings. -/
def inputOf (files : List SourceFile) : ProgramInput :=
  ⟨files.toFinset, c.settingsImport, c.analysisRequiredRoots⟩

/-- `refresh_module_graph`: the files become the import closure of the roots. -/
def refreshModuleGraph : Except String (Compiler × ProgramInput) :=
  if c.entryRoots = [] then .ok (c, ⟨c.files.toFinset, false, c.analysisRequiredRoots⟩)
  else match c.loadModules tc with
  | .error e => .error e
  | .ok modules =>
    let input := c.inputOf (moduleFiles modules)
    match tc.validateModules input with
    | .error e => .error e
    | .ok () =>
      let imported := modules.flatMap fun entry => entry.2.2
      let inferred := c.entryRoots.filter fun path => path ∉ imported
      let closure := modules.map Prod.fst
      let kept := c.files.filter fun file => file.path ∈ closure
      let compiler := { c with
        entryRoots := if inferred = [] then c.entryRoots else inferred
        files := ((moduleFiles modules).foldl upsertLoaded kept).insertionSort
          fun a b => a.path ≤ b.path }
      .ok (compiler, input)

end Compiler

end Stasis.Jit

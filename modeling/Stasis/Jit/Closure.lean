import Stasis.Jit.Sources
import Stasis.Lib.Assoc

namespace Stasis.Jit.Compiler

open List
variable {Config Analysis Generation : Type}

variable {files : List SourceFile}

lemma mem_upsertLoaded :
    f ∈ upsertLoaded files file ↔ f = file ∨ f ∈ files ∧ f.path ≠ file.path := by
  unfold upsertLoaded
  split_ifs with h
  · rw [mem_map]
    constructor
    · rintro ⟨g, hg, rfl⟩
      split_ifs with hpath
      · exact .inl rfl
      · exact .inr ⟨hg, hpath⟩
    · rintro (rfl | ⟨hf, hpath⟩)
      · obtain ⟨g, hg, hpath⟩ := mem_map.mp h
        exact ⟨g, hg, if_pos hpath⟩
      · exact ⟨f, hf, if_neg hpath⟩
  · rw [mem_append, mem_singleton]
    constructor
    · rintro (hf | rfl)
      · exact .inr ⟨hf, fun hpath => h (hpath ▸ mem_map_of_mem hf)⟩
      · exact .inl rfl
    · rintro (rfl | ⟨hf, -⟩)
      · exact .inr rfl
      · exact .inl hf

lemma nodup_upsertLoaded (h : (files.map SourceFile.path).Nodup) (file : SourceFile) :
    ((upsertLoaded files file).map SourceFile.path).Nodup := by
  unfold upsertLoaded
  split_ifs with hmem
  · rw [map_map]
    have hsame : files.map (SourceFile.path ∘ fun f => if f.path = file.path then file else f) =
        files.map SourceFile.path := by
      apply map_congr_left
      intro f _
      dsimp only [Function.comp]
      split_ifs with hpath
      · exact hpath.symm
      · rfl
    rwa [hsame]
  · rw [map_append, map_cons, map_nil, nodup_append]
    refine ⟨h, by simp, ?_⟩
    rintro a ha b hb rfl
    obtain rfl := mem_singleton.mp hb
    exact hmem ha

lemma mem_foldl_upsertLoaded {news : List SourceFile} (h : (news.map SourceFile.path).Nodup) :
    f ∈ news.foldl upsertLoaded files ↔
      f ∈ news ∨ f ∈ files ∧ f.path ∉ news.map SourceFile.path := by
  induction news generalizing files with
  | nil => simp
  | cons file news ih =>
    rw [map_cons, nodup_cons] at h
    rw [foldl_cons, ih h.2, mem_upsertLoaded, mem_cons, map_cons, mem_cons]
    constructor
    · rintro (hf | ⟨rfl | ⟨hf, hpath⟩, hnot⟩)
      · exact .inl (.inr hf)
      · exact .inl (.inl rfl)
      · exact .inr ⟨hf, by simp [hpath, hnot]⟩
    · rintro ((rfl | hf) | ⟨hf, hnot⟩)
      · exact .inr ⟨.inl rfl, h.1⟩
      · exact .inl hf
      · rw [not_or] at hnot
        exact .inr ⟨.inr ⟨hf, hnot.1⟩, hnot.2⟩

lemma nodup_foldl_upsertLoaded (h : (files.map SourceFile.path).Nodup) (news : List SourceFile) :
    ((news.foldl upsertLoaded files).map SourceFile.path).Nodup := by
  induction news generalizing files with
  | nil => exact h
  | cons file news ih => exact ih (nodup_upsertLoaded h file)

lemma mem_insertRoot : p ∈ insertRoot roots path ↔ p = path ∨ p ∈ roots := by
  unfold insertRoot
  split_ifs with h
  · exact ⟨.inr, fun hp => hp.elim (· ▸ h) id⟩
  · exact mem_cons

lemma upsertFile_of_canonical (c : Compiler) (h : path.Canonical) (text : String) :
    c.upsertFile path text = { c with
      entryRoots := insertRoot c.entryRoots path
      files := upsertLoaded c.files ⟨path, text⟩ } := by
  rw [upsertFile, SourcePath.canonicalSourcePath_of_canonical _ h]

lemma foldl_upsertFile (h : ∀ f ∈ files, f.path.Canonical) (c : Compiler) :
    let c' := files.foldl (fun c file => c.upsertFile file.path file.text) c
    c'.files = files.foldl upsertLoaded c.files ∧
      (∀ path, path ∈ c'.entryRoots ↔ path ∈ c.entryRoots ∨ path ∈ files.map SourceFile.path) ∧
      c'.projectRoot = c.projectRoot ∧
      c'.projectSettingsApiEnabled = c.projectSettingsApiEnabled ∧
      c'.analysisRequiredRoots = c.analysisRequiredRoots ∧
      c'.pendingPathError = c.pendingPathError := by
  induction files generalizing c with
  | nil => simp
  | cons file files ih =>
    have hfile := upsertFile_of_canonical c (h file (.head _)) file.text
    obtain ⟨hfiles, hroots, hroot, hset, hreq, herror⟩ :=
      ih (fun f hf => h f (.tail _ hf)) (c.upsertFile file.path file.text)
    simp only [foldl_cons]
    refine ⟨?_, ?_, ?_, ?_, ?_, ?_⟩
    · rw [hfiles, hfile]
    · intro path
      rw [hroots, hfile]
      simp only [mem_insertRoot, map_cons, mem_cons]
      tauto
    · rw [hroot, hfile]
    · rw [hset, hfile]
    · rw [hreq, hfile]
    · rw [herror, hfile]

/-- Two compilers that agree on everything a program depends on, up to the order
of files and to the choice of entry roots. -/
structure SameSources (c c' : Compiler) : Prop where
  files : ∀ f, f ∈ c'.files ↔ f ∈ c.files
  projectRoot : c'.projectRoot = c.projectRoot
  settings : c'.projectSettingsApiEnabled = c.projectSettingsApiEnabled
  requiredRoots : c'.analysisRequiredRoots = c.analysisRequiredRoots

namespace SameSources

lemma refl (c : Compiler) : SameSources c c := ⟨fun _ => .rfl, rfl, rfl, rfl⟩

lemma mem_paths (h : SameSources c c') : path ∈ c'.paths ↔ path ∈ c.paths := by
  simp only [paths, mem_map, h.files]

lemma settingsImport_eq (h : SameSources c c') : c'.settingsImport = c.settingsImport := by
  simp only [settingsImport, h.settings, h.mem_paths]

lemma toFinset_eq (h : SameSources c c') : c'.files.toFinset = c.files.toFinset := by
  ext f
  simp [h.files]

end SameSources

lemma findText_eq_some_iff {c : Compiler} (hnodup : c.paths.Nodup) :
    c.findText path = some text ↔ ⟨path, text⟩ ∈ c.files := by
  unfold findText
  rw [Option.map_eq_some_iff]
  constructor
  · rintro ⟨file, hfile, rfl⟩
    obtain rfl : file.path = path := by simpa using find?_some hfile
    exact mem_of_find?_eq_some hfile
  · intro hmem
    cases hfind : c.files.find? fun file => file.path = path with
    | none => simpa using find?_eq_none.mp hfind _ hmem
    | some file =>
      have hpath : file.path = path := by simpa using find?_some hfind
      refine ⟨file, rfl, ?_⟩
      rw [inj_on_of_nodup_map hnodup (mem_of_find?_eq_some hfind) hmem hpath]

section

variable (h : SameSources c c') (hnodup : c.paths.Nodup) (hnodup' : c'.paths.Nodup)
include h hnodup hnodup'

lemma SameSources.findText_eq (path : SourcePath) : c'.findText path = c.findText path := by
  ext text
  rw [findText_eq_some_iff hnodup', findText_eq_some_iff hnodup, h.files]

lemma SameSources.visitModule_eq
    (tc : Toolchain Config Analysis Generation) : c'.visitModule tc = c.visitModule tc := by
  funext path
  have hload : c'.loadSource tc path = c.loadSource tc path := by
    simp only [loadSource, h.findText_eq hnodup hnodup', diskFiles, h.projectRoot]
  simp only [visitModule, hload, moduleImports, h.settingsImport_eq]

end

section SelfContained

variable {tc : Toolchain Config Analysis Generation} {c c' : Compiler}

/-- The import closure of the entry roots, where it can be loaded, is exactly the
set of files: nothing comes from disk, and no file is left behind. -/
def selfContained (tc : Toolchain Config Analysis Generation) (c : Compiler) : Bool :=
  match c.loadModules tc with
  | .error _ => true
  | .ok modules =>
    (modules.map Prod.fst).all c.paths.contains && c.paths.all (modules.map Prod.fst).contains

lemma loadModules_invariant (h : c.loadModules tc = .ok modules) :
    ClosureInvariant (c.visitModule tc) c.entryRoots [] modules :=
  closureLoop_invariant h (.start _)

lemma mem_closure_iff (hself : c.selfContained tc = true) (h : c.loadModules tc = .ok modules)
    (path : SourcePath) :
    path ∈ modules.map Prod.fst ↔ path ∈ c.paths := by
  simp only [selfContained, h, Bool.and_eq_true, all_eq_true, contains_iff_mem] at hself
  exact ⟨hself.1 path, hself.2 path⟩

lemma loadSource_of_visitModule (h : c.visitModule tc path = .ok (v, succ)) :
    c.loadSource tc path = .ok v.1 := by
  unfold visitModule at h
  split at h
  · cases h
  rename_i hload
  split at h
  · cases h
  · cases h
    exact hload

lemma mem_moduleFiles_iff (hnodup : c.paths.Nodup) (hself : c.selfContained tc = true)
    (h : c.loadModules tc = .ok modules) (f : SourceFile) :
    f ∈ moduleFiles modules ↔ f ∈ c.files := by
  have hinv := loadModules_invariant h
  -- the text of a loaded module whose path is a file is that file's text
  have htext : ∀ entry ∈ modules, entry.1 ∈ c.paths → ⟨entry.1, entry.2.1⟩ ∈ c.files := by
    intro entry hentry hpath
    obtain ⟨-, succ, hvisit, -⟩ := hinv.visited entry hentry
    obtain ⟨file, hfile, hfilPa⟩ := mem_map.mp hpath
    have hfind : c.findText entry.1 = some file.text :=
      (findText_eq_some_iff hnodup).mpr (by rwa [← hfilPa])
    have hload := loadSource_of_visitModule hvisit
    simp only [loadSource, hfind, Except.ok.injEq] at hload
    exact (findText_eq_some_iff hnodup).mp (by rw [hfind, hload])
  unfold moduleFiles
  rw [mem_map]
  constructor
  · rintro ⟨entry, hentry, rfl⟩
    exact htext entry hentry ((mem_closure_iff hself h _).mp (mem_map_of_mem hentry))
  · intro hf
    have hpath : f.path ∈ modules.map Prod.fst :=
      (mem_closure_iff hself h _).mpr (mem_map_of_mem hf)
    obtain ⟨entry, hentry, heq⟩ := mem_map.mp hpath
    refine ⟨entry, hentry, ?_⟩
    have hmem := htext entry hentry (heq ▸ mem_map_of_mem hf)
    exact inj_on_of_nodup_map hnodup hmem hf heq

lemma nodup_moduleFiles (h : c.loadModules tc = .ok modules) :
    ((moduleFiles modules).map SourceFile.path).Nodup := by
  have hnodup := (loadModules_invariant h).nodup
  rwa [moduleFiles, map_map]

lemma paths_eq_nil (hself : c.selfContained tc = true) (hroots : c.entryRoots = []) :
    c.paths = [] := by
  have hempty : c.loadModules tc = .ok [] := by simp [loadModules, hroots, closureLoop]
  apply eq_nil_iff_forall_not_mem.mpr
  intro path hpath
  simpa using (mem_closure_iff hself hempty path).mpr hpath

lemma refreshModuleGraph_same (hnodup : c.paths.Nodup) (hself : c.selfContained tc = true)
    (h : c.refreshModuleGraph tc = .ok (c', input)) :
    SameSources c c' ∧ c'.paths.Nodup ∧ (∀ path ∈ c'.entryRoots, path ∈ c.entryRoots) ∧
      input = c.inputOf c.files := by
  unfold refreshModuleGraph at h
  split_ifs at h with hroots
  · -- without roots there are no files either
    obtain ⟨rfl, rfl⟩ := Prod.mk.inj (Except.ok.inj h)
    have hpaths := paths_eq_nil hself hroots
    exact ⟨.refl c, hnodup, fun _ hp => hp, by simp [inputOf, settingsImport, hpaths]⟩
  · split at h
    · cases h
    rename_i modules hload
    dsimp only at h
    split at h
    · cases h
    obtain ⟨rfl, rfl⟩ := Prod.mk.inj (Except.ok.inj h)
    have hfiles := mem_moduleFiles_iff hnodup hself hload
    have hkept : ((c.files.filter fun file =>
        file.path ∈ modules.map Prod.fst).map SourceFile.path).Nodup :=
      hnodup.sublist (List.Sublist.map _ filter_sublist)
    refine ⟨⟨?_, rfl, rfl, rfl⟩, ?_, ?_, ?_⟩
    · intro f
      rw [mem_insertionSort, mem_foldl_upsertLoaded (nodup_moduleFiles hload), hfiles]
      constructor
      · rintro (hf | ⟨hf, -⟩)
        · exact hf
        · exact (mem_filter.mp hf).1
      · exact .inl
    · refine (List.Perm.map SourceFile.path (perm_insertionSort _ _)).nodup_iff.mpr ?_
      exact nodup_foldl_upsertLoaded hkept _
    · intro path hpath
      dsimp only at hpath
      split_ifs at hpath
      · exact hpath
      · exact (mem_filter.mp hpath).1
    · have hset : (moduleFiles modules).toFinset = c.files.toFinset := by
        ext f
        simp [hfiles]
      rw [inputOf, inputOf, hset]

lemma mem_loadablePaths (h : c.visitModule tc path = .ok (v, succ)) :
    path ∈ c.loadablePaths tc := by
  have hload := loadSource_of_visitModule h
  unfold loadSource at hload
  unfold loadablePaths
  rw [mem_append]
  split at hload
  · rename_i hfind
    obtain ⟨file, hfile, -⟩ := Option.map_eq_some_iff.mp hfind
    obtain rfl : file.path = path := by simpa using find?_some hfile
    exact .inl (mem_map_of_mem (mem_of_find?_eq_some hfile))
  · split_ifs at hload
    split at hload
    · rename_i hlook
      exact .inr (mem_map_of_mem (mem_of_lookup hlook))
    · cases hload

variable (hnodup : c.paths.Nodup) (hnodup' : c'.paths.Nodup)
  (hsame : SameSources c c') (hself : c.selfContained tc = true)
  (hroots : ∀ path, path ∈ c'.entryRoots ↔ path ∈ c'.paths)
include hnodup hnodup' hsame hself hroots

lemma exists_loadModules_of_same (h : c.loadModules tc = .ok modules) :
    ∃ modules', c'.loadModules tc = .ok modules' ∧ c'.selfContained tc = true := by
  have hvisit := hsame.visitModule_eq hnodup hnodup' tc
  have hinv := loadModules_invariant h
  have hreach : ∀ path, Reach (c.visitModule tc) c.entryRoots path ↔ path ∈ c'.paths := fun path =>
    (hinv.finished path).symm.trans ((mem_closure_iff hself h path).trans hsame.mem_paths.symm)
  have hgood : ∀ path, Reach (c.visitModule tc) c.entryRoots path → ∃ v succ,
      c'.visitModule tc path = .ok (v, succ) ∧
        ∀ next ∈ succ, Reach (c.visitModule tc) c.entryRoots next := by
    intro path hpath
    obtain ⟨entry, hentry, rfl⟩ := mem_map.mp ((hinv.finished path).mpr hpath)
    obtain ⟨-, succ, hv, -⟩ := hinv.visited entry hentry
    exact ⟨entry.2, succ, by rw [hvisit, hv], fun next hnext => .step hpath hv hnext⟩
  have hloa : ∀ path, Reach (c.visitModule tc) c.entryRoots path → path ∈ c'.loadablePaths tc := by
    intro path hpath
    obtain ⟨v, succ, hv, -⟩ := hgood path hpath
    exact mem_loadablePaths hv
  have hcom : ∃ modules', c'.loadModules tc = .ok modules' :=
    closureLoop_complete hgood hloa
      (fun path hpath => (hreach path).mpr ((hroots path).mp hpath)) le_rfl
  obtain ⟨modules', hload⟩ := hcom
  have hinv' := loadModules_invariant hload
  refine ⟨modules', hload, ?_⟩
  simp only [selfContained, hload, Bool.and_eq_true, all_eq_true, contains_iff_mem]
  constructor
  · intro path hpath
    have hpath' := (hinv'.finished path).mp hpath
    rw [hvisit] at hpath'
    clear hpath
    apply (hreach path).mp
    -- the closure of the files stays within the closure of the old roots
    induction hpath' with
    | root hroot => exact (hreach _).mpr ((hroots _).mp hroot)
    | step _ hv hnext ih => exact .step ih hv hnext
  · intro path hpath
    exact (hinv'.finished path).mpr (.root ((hroots path).mpr hpath))

lemma refreshModuleGraph_of_same (h : c.refreshModuleGraph tc = .ok (c₁, input)) :
    c'.selfContained tc = true ∧ ∃ c₂, c'.refreshModuleGraph tc = .ok (c₂, input) := by
  have hinput := (refreshModuleGraph_same hnodup hself h).2.2.2
  have hset : c'.inputOf c'.files = input := by
    rw [hinput, inputOf, inputOf, hsame.toFinset_eq, hsame.settingsImport_eq, hsame.requiredRoots]
  by_cases hempty : c.entryRoots = []
  · have hpaths : c'.paths = [] := by
      apply eq_nil_iff_forall_not_mem.mpr
      intro path hpath
      simpa [paths_eq_nil hself hempty] using hsame.mem_paths.mp hpath
    have hroots' : c'.entryRoots = [] := by
      apply eq_nil_iff_forall_not_mem.mpr
      intro path hpath
      simpa [hpaths] using (hroots path).mp hpath
    refine ⟨by simp [selfContained, loadModules, hroots', closureLoop, hpaths], c', ?_⟩
    rw [refreshModuleGraph, if_pos hroots', ← hset]
    simp [inputOf, settingsImport, hpaths]
  · rw [refreshModuleGraph, if_neg hempty] at h
    split at h
    · cases h
    rename_i modules hload
    obtain ⟨modules', hload', hself'⟩ :=
      exists_loadModules_of_same hnodup hnodup' hsame hself hroots hload
    refine ⟨hself', ?_⟩
    have hnon : c'.entryRoots ≠ [] := by
      intro hnil
      obtain ⟨root, hroot⟩ := exists_mem_of_ne_nil _ hempty
      have hpath : root ∈ c'.paths := hsame.mem_paths.mpr ((mem_closure_iff hself hload root).mp
        (((loadModules_invariant hload).finished root).mpr (.root hroot)))
      simpa [hnil] using (hroots root).mpr hpath
    have hinput' : c'.inputOf (moduleFiles modules') = input := by
      have hmod : (moduleFiles modules').toFinset = c'.files.toFinset := by
        ext f
        simp [mem_moduleFiles_iff hnodup' hself' hload' f]
      rw [← hset, inputOf, inputOf, hmod]
    have hval : tc.validateModules input = .ok () := by
      have hmod : c.inputOf (moduleFiles modules) = input := by
        have heq : (moduleFiles modules).toFinset = c.files.toFinset := by
          ext f
          simp [mem_moduleFiles_iff hnodup hself hload f]
        rw [hinput, inputOf, inputOf, heq]
      dsimp only at h
      rw [hmod] at h
      split at h
      · cases h
      · assumption
    rw [refreshModuleGraph, if_neg hnon, hload']
    simp only [hinput', hval]
    exact ⟨_, rfl⟩

end SelfContained

end Stasis.Jit.Compiler

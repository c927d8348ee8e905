import CallTable.Proofs.Files.Path
import CallTable.Settings

/-!
# Settings seen from several directories

Taking the paths of the dumps as relative to one directory after another changes each path for
itself, and nothing else of the settings. `resolutions_compose` says that two directories act as
their joined path does, that any number of them acts as all of them joined from the last one to the
first, and that an absolute path is left alone from the moment it is absolute.
-/

namespace CallTable.Settings

/-- Takes relative paths as relative to one directory after another. -/
def resolveAll (settings : Settings) (bases : List Path) : Settings :=
  bases.foldl resolvePaths settings

/-- Each path is seen from the directories for itself. -/
theorem resolveAll_eq_seenFrom (settings : Settings) (bases : List Path) :
    settings.resolveAll bases =
      { settings with
        table := settings.table.seenFrom bases
        signatures := settings.signatures.seenFrom bases } := by
  induction bases generalizing settings with
  | nil => rfl
  | cons base bases ih => exact ih (settings.resolvePaths base)

/-- Two directories act as the second joined with the first. -/
theorem resolvePaths_resolvePaths (settings : Settings) (first second : Path) :
    (settings.resolvePaths first).resolvePaths second =
      settings.resolvePaths (second.join first) := by
  simp only [resolvePaths, Path.join_assoc]

/-- Directories act as their joined path does, the last one first. -/
theorem resolveAll_eq_resolvePaths (settings : Settings) (bases : List Path) :
    settings.resolveAll bases = settings.resolvePaths (Path.joinAll bases.reverse) := by
  rw [resolveAll_eq_seenFrom, Path.seenFrom_eq_join, Path.seenFrom_eq_join]
  rfl

/-- The path of a dump is seen from the directories as any path is. -/
theorem dump_resolveAll {dump : Settings → Path} (hdump : dump ∈ [table, signatures])
    (settings : Settings) (bases : List Path) :
    dump (settings.resolveAll bases) = (dump settings).seenFrom bases := by
  simp only [List.mem_cons, List.not_mem_nil, or_false] at hdump
  rw [resolveAll_eq_seenFrom]
  rcases hdump with rfl | rfl
  · rfl
  · rfl

/-- Settings whose paths are taken as relative to a first directory and then to a second are those
whose paths are taken as relative to the second joined with the first. After any number of
directories they are those whose paths are taken as relative to all of them joined, from the last
one to the first. The path of a dump stays as it is if it is absolute; it is absolute after some
directories exactly if it was so before or one of them is, and then later directories leave it. -/
theorem resolutions_compose (settings : Settings) (first second : Path)
    (bases later : List Path) :
    (settings.resolvePaths first).resolvePaths second =
        settings.resolvePaths (second.join first) ∧
      settings.resolveAll bases = settings.resolvePaths (Path.joinAll bases.reverse) ∧
      ∀ dump ∈ [table, signatures],
        ((dump settings).isAbsolute = true → dump (settings.resolveAll bases) = dump settings) ∧
        (dump (settings.resolveAll bases)).isAbsolute =
          ((dump settings).isAbsolute || bases.any Path.isAbsolute) ∧
        ((dump (settings.resolveAll bases)).isAbsolute = true →
          dump (settings.resolveAll (bases ++ later)) = dump (settings.resolveAll bases)) := by
  refine ⟨settings.resolvePaths_resolvePaths first second,
    settings.resolveAll_eq_resolvePaths bases, fun dump hdump => ?_⟩
  simp only [dump_resolveAll hdump]
  refine ⟨fun h => Path.seenFrom_of_isAbsolute h bases, Path.isAbsolute_seenFrom _ bases,
    fun h => ?_⟩
  rw [Path.seenFrom_append, Path.seenFrom_of_isAbsolute h]

/-- Settings with an absolute table path, seen from a directory that ends in a slash, from nowhere,
from an absolute directory and then from two more. -/
theorem resolutions_compose_sample :
    let settings := { standard with table := ⟨"/dumps/fntable.txt"⟩ }
    let bases : List Path := [⟨"conf/"⟩, ⟨""⟩, ⟨"/srv/project"⟩]
    let later : List Path := [⟨"home"⟩, ⟨"/"⟩]
    table ∈ [table, signatures] ∧ signatures ∈ [table, signatures] ∧
      settings.table.isAbsolute = true ∧
      (settings.resolveAll bases).signatures.isAbsolute = true ∧
      settings.signatures.isAbsolute = false ∧
      (settings.resolveAll (bases ++ later)).table = ⟨"/dumps/fntable.txt"⟩ ∧
      (settings.resolveAll (bases ++ later)).signatures = ⟨"/srv/project/conf/signatures.txt"⟩ := by
  intro settings bases later
  have htable : table ∈ [table, signatures] := List.mem_cons_self
  have hsignatures : signatures ∈ [table, signatures] := List.mem_cons_of_mem _ List.mem_cons_self
  have hfixed : settings.table.isAbsolute = true := by decide
  have hfound : (settings.resolveAll bases).signatures.isAbsolute = true := by decide +kernel
  obtain ⟨-, -, hwhole⟩ := resolutions_compose settings ⟨""⟩ ⟨""⟩ (bases ++ later) []
  obtain ⟨-, -, hstaged⟩ := resolutions_compose settings ⟨""⟩ ⟨""⟩ bases later
  refine ⟨htable, hsignatures, hfixed, hfound, by decide, (hwhole table htable).1 hfixed, ?_⟩
  rw [(hstaged signatures hsignatures).2.2 hfound]
  decide +kernel

end CallTable.Settings

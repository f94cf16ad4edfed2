import LempStack.FileMaps
import LempStack.PlayRun

/-! The tasks of the phpMyAdmin role on a host: the release is unpacked below `/tmp`,
copied into the installation directory by a shell glob, and the unpacked tree is
removed. Which of these steps a run takes is read off two proxies, `index.php` in the
installation directory and the changed flag of the extraction, and a registered result
that a later task replaces. One release is installed in all runs; file attributes, the
virtual host file and the directory for temporary files are left out. -/

namespace LempStack.PhpMyAdminRole
open FileMaps PlayRun

abbrev Path := List String

abbrev Files := Tree Path String

def indexPhp : Path := ["index.php"]

def configIncPhp : Path := ["config.inc.php"]

/-- What the shell expands `*` to: names that do not start with a dot. -/
def visible : Path → Bool
  | name :: _ => name.toList.head? != some '.'
  | [] => false

structure Archive where
  paths : List Path
  text : Path → String

namespace Archive
variable (a : Archive)

def tree : Files := fun p => if p ∈ a.paths then some (a.text p) else none

def unpacked (extracted : Option Files) : Bool :=
  match extracted with
  | none => false
  | some t => a.paths.all fun p => t p == some (a.text p)

end Archive

-- `phpmyadmin_install_dir`, and the `phpMyAdmin-*` directory of `/tmp`
structure Host where
  installDir : Option Files
  extracted : Option Files

def Host.files (h : Host) : Files := h.installDir.getD noFiles

-- `phpmyadmin_installed.stat.exists`, `phpmyadmin_download.changed`, and
-- `phpmyadmin_extracted_dir.files`, none when it is not defined
structure Registers where
  installed : Bool
  downloadChanged : Bool
  extractedDir : Option (List String)

structure Play where
  host : Host
  regs : Registers

inductive Task where
  | checkInstalled
  | setVersion
  | createDir
  | unarchive
  | findExtracted
  | initFiles
  | copyFiles
  | removeExtracted
  | createConfig
  | createTmp
  | configureNginx
  | setPermissions
  deriving DecidableEq, Repr

/-- The files a task had dealt with when it failed; the empty path is the directory. -/
abbrev Residue := Path → Bool

-- `config` is what `config.inc.php.j2` renders to
structure Run where
  phpmyadminInstall : Bool
  phpmyadminVersion : String
  config : String
  faults : Task → Option Residue

def setHost (f : Host → Host) (p : Play) : Play := { p with host := f p.host }

def setRegs (f : Registers → Registers) (p : Play) : Play := { p with regs := f p.regs }

/-- A task that deals with all of its files or, when it fails, with some of them. -/
def partly (fault : Option Residue) (act : Residue → Play → Play) (p : Play) : Outcome Play :=
  match fault with
  | none => .ok (act (fun _ => true) p)
  | some done => .failed (act done p)

section Items
variable (a : Archive) (fault : Option Residue)

/-- `cp -a` of the unpacked tree's `*`; it fails when the glob matches nothing. -/
def copyItem (p : Play) : Outcome Play :=
  match p.host.installDir, p.host.extracted with
  | some dir, some t =>
    if a.paths.any fun q => visible q && (t q).isSome then
      partly fault (fun done => setHost fun h =>
        { h with installDir := some (copyOver (fun q => visible q && done q) t dir) }) p
    else .failed p
  | _, _ => .failed p

def removeItem (p : Play) : Outcome Play :=
  partly fault (fun done => setHost fun h =>
    { h with extracted := if done [] then none else h.extracted.map (remove done) }) p

end Items

def extractedPath : String := "/tmp/phpMyAdmin-5.2.1-all-languages"

section Role
variable (a : Archive) (r : Run)

def exec (t : Task) (fault : Option Residue) (p : Play) : Outcome Play :=
  match t with
  | .checkInstalled =>
    partly fault (fun _ => setRegs fun g =>
      { g with installed := (p.host.files indexPhp).isSome }) p
  | .setVersion =>
    if r.phpmyadminVersion = "latest" then partly fault (fun _ p => p) p else .ok p
  | .createDir =>
    if r.phpmyadminInstall && !p.regs.installed then
      partly fault (fun done p =>
        if done [] then setHost (fun h => { h with installDir := some h.files }) p else p) p
    else .ok p
  | .unarchive =>
    if r.phpmyadminInstall && !p.regs.installed then
      if a.unpacked p.host.extracted then
        partly fault (fun _ => setRegs fun g => { g with downloadChanged := false }) p
      else
        partly fault (fun done p =>
          if done [] then
            setRegs (fun g => { g with downloadChanged := true }) (setHost (fun h =>
              { h with extracted := some (copyOver done a.tree (h.extracted.getD noFiles)) }) p)
          else p) p
    else .ok (setRegs (fun g => { g with downloadChanged := false }) p)
  | .findExtracted =>
    if r.phpmyadminInstall && p.regs.downloadChanged then
      partly fault (fun _ => setRegs fun g => { g with
        extractedDir := some (if p.host.extracted.isSome then [extractedPath] else []) }) p
    -- a skipped task registers a result without `files`
    else .ok (setRegs (fun g => { g with extractedDir := none }) p)
  | .initFiles =>
    if r.phpmyadminInstall && p.regs.extractedDir.isNone then
      partly fault (fun _ => setRegs fun g => { g with extractedDir := some [] }) p
    else .ok p
  | .copyFiles =>
    if r.phpmyadminInstall then
      withItems (fun _ => copyItem a fault) (p.regs.extractedDir.getD []) p
    else .ok p
  | .removeExtracted =>
    if r.phpmyadminInstall then
      withItems (fun _ => removeItem fault) (p.regs.extractedDir.getD []) p
    else .ok p
  | .createConfig =>
    if r.phpmyadminInstall then
      match p.host.installDir with
      | some dir =>
        partly fault (fun done p =>
          if done configIncPhp then
            setHost (fun h => { h with installDir := some (write configIncPhp r.config dir) }) p
          else p) p
      | none => .failed p
    else .ok p
  | .createTmp | .configureNginx | .setPermissions =>
    if r.phpmyadminInstall then partly fault (fun _ p => p) p else .ok p

end Role

def installTasks : List Task :=
  [.setVersion, .createDir, .unarchive, .findExtracted, .initFiles, .copyFiles, .removeExtracted]

def configTasks : List Task := [.createConfig, .createTmp, .configureNginx, .setPermissions]

def roleTasks : List Task := .checkInstalled :: (installTasks ++ configTasks)

def start (h : Host) : Play := ⟨h, ⟨false, false, none⟩⟩

def run (a : Archive) (r : Run) (h : Host) : Outcome Host :=
  (runTasks (exec a r) r.faults roleTasks (start h)).map Play.host

def freshHost : Host := ⟨none, none⟩

end LempStack.PhpMyAdminRole

import LempStack.ErrExit

/-! `rabbitmq_setup.sh`, command by command. The script runs under `set -e` and tests the
status of `configure_rabbitmq` all the same; where the configuration fails the script is
over before the test. Any command may fail, an `echo` too, and one that fails may leave
anything in the file it writes. What the packages put on the disk is
left out, and the texts of the here-documents are given by their paths. -/

namespace LempStack.RabbitmqSetup
open ErrExit

inductive Command where
  | echo (text : String)
  | echoSystem
  | aptInstall (packages : List String)
  | aptUpdate
  | fetchKey (url path : String)
  | sourceLsbRelease
  | sourceOsRelease
  | assumeNoble
  | writeSources
  | mv (src dst : String)
  | cat (path : String)
  | overwrite (path text : String)
  | append (path text : String)
  | chown (owner path : String)
  | chmod (mode path : String)
  | systemctl (verb unit : String)
  | sleep
  | status
  deriving DecidableEq, Repr

inductive Test where
  | notRoot
  | installed
  | lsbRelease
  | osRelease
  | confExists
  | active
  | lastOk
  deriving DecidableEq, Repr

inductive Loop where
  | phpFpm
  deriving DecidableEq, Repr

abbrev Setup := Script Command Test Loop

structure Host where
  files : String → Option String
  osType : String
  osCodename : String
  log : List String

/-- What a run meets: the code names read from the release files, the units that `dpkg -l`
lists, the keys behind their addresses, and the commands that fail, with what they leave of
the file they write. -/
structure World where
  root : Bool
  installed : Bool
  lsbRelease : Option String
  osRelease : Option String
  active : Bool
  fpm : List String
  keyring : String → String
  heredoc : String → String
  faults : Command → Option (Option String)

section Commands
variable (w : World)

def rabbitmqList (osType osCodename : String) : String :=
  let line (deb key repo : String) := deb ++ " [signed-by=/usr/share/keyrings/rabbitmq." ++ key ++
    ".gpg] https://ppa1.rabbitmq.com/rabbitmq/" ++ repo ++ "/deb/" ++ osType ++ " " ++
    osCodename ++ " main\n"
  "## RabbitMQ Erlang\n" ++ line "deb" "E495BB49CC4BBE5B" "rabbitmq-erlang" ++
    line "deb-src" "E495BB49CC4BBE5B" "rabbitmq-erlang" ++ "\n## RabbitMQ Server\n" ++
    line "deb" "9F4587F226208342" "rabbitmq-server" ++
    line "deb-src" "9F4587F226208342" "rabbitmq-server"

def sourcesPath : String := "/etc/apt/sources.list.d/rabbitmq.list"

def setFile (path : String) (text : Option String) (s : Host) : Host :=
  { s with files := fun p => if p = path then text else s.files p }

def target : Command → Option String
  | .fetchKey _ path => some path
  | .writeSources => some sourcesPath
  | .cat path => some path
  | .overwrite path _ => some path
  | .append path _ => some path
  | _ => none

def effect (c : Command) (s : Host) : Host :=
  match c with
  | .echo text => { s with log := s.log ++ [text] }
  | .echoSystem =>
    { s with log := s.log ++ ["检测到操作系统: " ++ s.osType ++ " " ++ s.osCodename] }
  | .fetchKey url path => setFile path (some (w.keyring url)) s
  | .sourceLsbRelease => { s with osType := "ubuntu", osCodename := w.lsbRelease.getD "" }
  | .sourceOsRelease => { s with osType := "debian", osCodename := w.osRelease.getD "" }
  | .assumeNoble => { s with osType := "ubuntu", osCodename := "noble" }
  | .writeSources => setFile sourcesPath (some (rabbitmqList s.osType s.osCodename)) s
  | .mv src dst => setFile src none (setFile dst (s.files src) s)
  | .cat path => setFile path (some (w.heredoc path)) s
  | .overwrite path text => setFile path (some (text ++ "\n")) s
  | .append path text => setFile path (some ((s.files path).getD "" ++ text ++ "\n")) s
  | _ => s

def exec (c : Command) (s : Host) : Host × Bool :=
  match w.faults c with
  | none => (effect w c s, true)
  | some left =>
    match target c with
    | some path => (setFile path left s, false)
    | none => (s, false)

def confPath : String := "/etc/rabbitmq/rabbitmq.conf"

def test (t : Test) (ok : Bool) (s : Host) : Bool :=
  match t with
  | .notRoot => !w.root
  | .installed => w.installed
  | .lsbRelease => w.lsbRelease.isSome
  | .osRelease => w.osRelease.isSome
  | .confExists => (s.files confPath).isSome
  | .active => w.active
  | .lastOk => ok

def body : Loop → Host → List Command
  | .phpFpm, _ => w.fpm.flatMap fun version =>
      [.echo ("重启 " ++ version ++ " 服务..."), .systemctl "restart" version]

def shell : Shell Command Test Loop Host := ⟨exec w, test w, body w⟩

theorem mem_body (l : Loop) (s : Host) {c : Command} (listed : c ∈ body w l s) :
    ∃ version, c = .echo ("重启 " ++ version ++ " 服务...") ∨ c = .systemctl "restart" version := by
  obtain ⟨version, -, here⟩ := List.mem_flatMap.mp listed
  exact ⟨version, List.mem_pair.mp here⟩

end Commands

section Functions
open Script

def signingKeys : String := "https://github.com/rabbitmq/signing-keys/releases/download/3.0/"

def installRabbitmq : Setup := steps [
  block [.echo "[步骤1] 安装RabbitMQ和所需依赖",
    .aptInstall ["curl", "gnupg", "apt-transport-https"],
    .fetchKey
      "https://keys.openpgp.org/vks/v1/by-fingerprint/0A9AF2115F4687BD29803A206B73A36E6026DFCA"
      "/usr/share/keyrings/com.rabbitmq.team.gpg",
    .fetchKey (signingKeys ++ "cloudsmith.rabbitmq-erlang.E495BB49CC4BBE5B.key")
      "/usr/share/keyrings/rabbitmq.E495BB49CC4BBE5B.gpg",
    .fetchKey (signingKeys ++ "cloudsmith.rabbitmq-server.9F4587F226208342.key")
      "/usr/share/keyrings/rabbitmq.9F4587F226208342.gpg"],
  branch .lsbRelease (cmd .sourceLsbRelease)
    (branch .osRelease (cmd .sourceOsRelease)
      (block [.echo "无法检测到操作系统版本，使用默认值'noble'和'ubuntu'", .assumeNoble])),
  block [.echoSystem, .writeSources, .aptUpdate,
    .aptInstall ["erlang-base", "erlang-asn1", "erlang-crypto", "erlang-eldap", "erlang-ftp",
      "erlang-inets", "erlang-mnesia", "erlang-os-mon", "erlang-parsetools", "erlang-public-key",
      "erlang-runtime-tools", "erlang-snmp", "erlang-ssl", "erlang-syntax-tools", "erlang-tftp",
      "erlang-tools", "erlang-xmerl"],
    .aptInstall ["rabbitmq-server"],
    .echo "[成功] RabbitMQ已安装"]]

def originalPath : String := "/etc/rabbitmq/rabbitmq.conf.original"

def saveConf : Setup :=
  branch .confExists
    (block [.mv confPath originalPath,
      .echo "已备份原始配置到 /etc/rabbitmq/rabbitmq.conf.original"]) skip

def startCommands : List Command := [.cat confPath,
  .chown "rabbitmq:rabbitmq" confPath, .chmod "644" confPath,
  .systemctl "start" "rabbitmq-server", .systemctl "enable" "rabbitmq-server",
  .echo "等待RabbitMQ启动...", .sleep]

def startRabbitmq : Setup := block startCommands

def checkActive : Setup :=
  branch .active (cmd (.echo "[成功] RabbitMQ服务已启动"))
    (seq (cmd (.echo "[警告] RabbitMQ服务未能正常启动，请检查")) (ret false))

def configureRabbitmq : Setup :=
  seq (cmd (.echo "[步骤2] 配置RabbitMQ"))
    (seq saveConf (seq startRabbitmq (seq checkActive (ret true))))

def installPhpAmqp : Setup := steps [
  block [.echo "[步骤3] 安装PHP AMQP扩展", .aptInstall ["php-amqp"]],
  each .phpFpm,
  cmd (.echo "[成功] PHP AMQP扩展已安装")]

def optimizedPath : String := "/etc/rabbitmq/rabbitmq-optimized.conf"

def createOptimizedConfig : Setup := block [.echo "[步骤4] 创建优化的配置文件",
  .cat optimizedPath,
  .echo "[成功] 优化配置文件已创建: /etc/rabbitmq/rabbitmq-optimized.conf",
  .echo "注意: 此配置文件并未启用，您可以根据需要手动应用或修改",
  .echo "      应用命令: sudo cp /etc/rabbitmq/rabbitmq-optimized.conf /etc/rabbitmq/rabbitmq.conf"]

def monitorPath : String := "/usr/local/bin/rabbitmq_monitor.sh"

def cronPath : String := "/etc/cron.d/rabbitmq_monitor"

def cronComment : String := "# RabbitMQ队列监控 - 每10分钟执行一次"

def cronLine : String := "*/10 * * * * root /usr/local/bin/rabbitmq_monitor.sh >/dev/null 2>&1"

def createMonitorScript : Setup := block [.echo "[步骤5] 创建RabbitMQ监控脚本",
  .cat monitorPath, .chmod "+x" monitorPath,
  .overwrite cronPath cronComment, .append cronPath cronLine,
  .echo "[成功] 监控脚本已创建: /usr/local/bin/rabbitmq_monitor.sh",
  .echo "       Cron任务已设置: 每10分钟执行一次"]

def consumerPath : String := "/usr/local/bin/magento_consumer_start.sh"

def createConsumerScript : Setup := block [.echo "[步骤6] 创建Magento消费者启动脚本",
  .cat consumerPath, .chmod "+x" consumerPath,
  .echo "[成功] 消费者启动脚本已创建: /usr/local/bin/magento_consumer_start.sh",
  .echo "       注意: 使用前请修改脚本中的MAGENTO_ROOT变量为实际路径"]

def guidePath : String := "/usr/local/share/doc/rabbitmq_troubleshooting.md"

def createTroubleshootingGuide : Setup := block [.echo "[步骤7] 创建故障排查指南",
  .cat guidePath,
  .echo "[成功] 故障排查指南已创建: /usr/local/share/doc/rabbitmq_troubleshooting.md"]

def completionNotice : String := "==== RabbitMQ安装与配置完成 ===="

def failureNotice : String := "==== RabbitMQ配置失败 ===="

def finishSetup : Setup := steps [
  call installPhpAmqp, call createOptimizedConfig, call createMonitorScript,
  call createConsumerScript, call createTroubleshootingGuide,
  block [.echo "", .echo completionNotice,
    .echo "1. 基本配置已生效",
    .echo "2. 优化配置文件已创建: /etc/rabbitmq/rabbitmq-optimized.conf (未启用)",
    .echo "3. 监控脚本已安装: /usr/local/bin/rabbitmq_monitor.sh",
    .echo "4. 消费者启动脚本已创建: /usr/local/bin/magento_consumer_start.sh",
    .echo "5. 故障排查指南: /usr/local/share/doc/rabbitmq_troubleshooting.md",
    .echo "", .echo "RabbitMQ状态:", .status]]

def reportFailure : Setup := block [.echo "", .echo failureNotice,
  .echo "请检查日志获取更多信息: journalctl -u rabbitmq-server"]

def installIfMissing : Setup :=
  branch .installed (cmd (.echo "RabbitMQ已安装。跳过安装步骤。")) (call installRabbitmq)

def main : Setup :=
  seq installIfMissing (seq (call configureRabbitmq) (branch .lastOk finishSetup reportFailure))

def requireRoot : Setup := branch .notRoot (seq (cmd (.echo "请以root用户运行此脚本!")) exit) skip

def greeting : Setup := block [.echo "=== RabbitMQ 安装与配置脚本 v0.1.1 ===",
  .echo "此脚本将安装RabbitMQ并进行Magento 2优化配置", .echo ""]

def rabbitmqSetup : Setup := seq requireRoot (seq greeting (call main))

end Functions

section Reached
variable (w : World)

def straight : Setup :=
  .seq requireRoot (.seq greeting
    (.call (.seq installIfMissing (.seq (.call configureRabbitmq) finishSetup))))

theorem eval_straight (ok : Bool) (s : Host) :
    eval (shell w) rabbitmqSetup ok s = eval (shell w) straight ok s := by
  refine eval_seq_right (eval_seq_right (eval_call_body (eval_seq_right ?_))) ok s
  exact eval_status_branch fun _ => rfl

theorem append_ne {a b : String} (first : a.toList.head? ≠ b.toList.head?)
    (nonempty : a.toList ≠ []) (x : String) : a ++ x ≠ b := by
  intro same
  have heads := congrArg (fun s : String => s.toList.head?) same
  simp only [String.toList_append, List.head?_append_of_ne_nil _ nonempty] at heads
  exact first heads

theorem exec_silent {c : Command} (other : c ≠ .echo failureNotice) {s : Host}
    (silent : failureNotice ∉ s.log) : failureNotice ∉ (exec w c s).1.log := by
  have effects : failureNotice ∉ (effect w c s).log := by
    cases c with
    | echo text =>
      simp only [effect, List.mem_append, List.mem_singleton, not_or]
      exact ⟨silent, fun same => other (same ▸ rfl)⟩
    | echoSystem =>
      simp only [effect, List.mem_append, List.mem_singleton, not_or]
      refine ⟨silent, fun same => ?_⟩
      rw [String.append_assoc, String.append_assoc] at same
      exact append_ne (by decide) (by decide) _ same.symm
    | _ => exact silent
  unfold exec
  cases w.faults c with
  | none => exact effects
  | some left => cases target c <;> exact silent

/-- Nobody is told that the configuration has failed. -/
theorem failure_notice_unreachable {s : Host} (silent : failureNotice ∉ s.log) :
    failureNotice ∉ (eval (shell w) rabbitmqSetup true s).state.log := by
  rw [eval_straight]
  have spoken : ∀ c ∈ straight.cmds, c ≠ .echo failureNotice := by decide +kernel
  refine eval_invariant (I := fun s : Host => failureNotice ∉ s.log)
    (fun c listed s silent => exec_silent w (spoken c listed) silent)
    (fun l _ r c listed s silent => ?_) silent
  refine exec_silent w ?_ silent
  obtain ⟨version, rfl | rfl⟩ := mem_body w l r listed
  · intro same
    have texts := Command.echo.inj same
    rw [String.append_assoc] at texts
    exact append_ne (by decide) (by decide) _ texts
  · simp

def bareHost : Host := ⟨fun _ => none, "", "", []⟩

def calmWorld : World where
  root := true
  installed := false
  lsbRelease := some "noble"
  osRelease := some "noble"
  active := true
  fpm := ["php8.3-fpm"]
  keyring url := url
  heredoc path := path
  faults _ := none

theorem inactive_unreported : failureNotice ∉
    (eval (shell { calmWorld with active := false }) rabbitmqSetup true bareHost).state.log :=
  failure_notice_unreachable _ List.not_mem_nil

end Reached

section Completed
variable (w : World)

def touches (path : String) : Command → Bool
  | .mv src dst => src == path || dst == path
  | c => target c == some path

theorem exec_ok {c : Command} {s s' : Host} (ok : exec w c s = (s', true)) :
    s' = effect w c s := by
  unfold exec at ok
  cases fault : w.faults c with
  | none =>
    rw [fault] at ok
    exact (congrArg Prod.fst ok).symm
  | some left =>
    rw [fault] at ok
    cases written : target c <;> rw [written] at ok <;> cases ok

theorem setFile_other {path p : String} (other : p ≠ path) (text : Option String) (s : Host) :
    (setFile p text s).files path = s.files path := if_neg (Ne.symm other)

theorem effect_untouched {c : Command} {path : String} (free : touches path c = false) (s : Host) :
    (effect w c s).files path = s.files path := by
  cases c with
  | mv src dst =>
    simp only [touches, Bool.or_eq_false_iff, beq_eq_false_iff_ne] at free
    rw [effect, setFile_other free.1, setFile_other free.2]
  | fetchKey url p | writeSources | cat p | overwrite p text | append p text =>
    refine setFile_other (fun same => ?_) _ s
    simp [touches, target, same] at free
  | _ => rfl

/-- A run that goes through leaves the file as the command that writes it makes it, where
nothing touches the file later. -/
theorem completed_file {path : String} {c : Command} {P : Option String → Prop}
    (makes : ∀ s, P ((effect w c s).files path))
    (settled : straight.settles (fun d => d == c) (fun d => !touches path d) (fun _ => true) = true)
    (loops : ∀ l s, ∀ d ∈ body w l s, touches path d = false) {ok k : Bool} {s s' : Host}
    (done : eval (shell w) rabbitmqSetup ok s = .next s' k) : P (s'.files path) := by
  rw [eval_straight] at done
  refine eval_settles (I := fun s : Host => P (s.files path)) (fun d same s s' ran => ?_)
    (fun d free s s' there ran => ?_) (fun l _ s d own => ?_) settled (.inl ⟨k, done⟩)
  · rw [exec_ok w ran, beq_iff_eq.mp same]
    exact makes s
  · rw [exec_ok w ran, effect_untouched w (by simpa using free)]
    exact there
  · simpa using loops l s d own

theorem body_untouched (path : String) (l : Loop) (s : Host) :
    ∀ d ∈ body w l s, touches path d = false := by
  intro d own
  obtain ⟨version, rfl | rfl⟩ := mem_body w l s own <;> rfl

theorem checkActive_fails (down : w.active = false) (ok : Bool) (s r : Host) :
    eval (shell w) (.seq checkActive (.ret true)) ok s ≠ .next r true ∧
      eval (shell w) (.seq checkActive (.ret true)) ok s ≠ .returned r true := by
  rw [checkActive, eval_seq, eval_branch, if_neg (by simp [shell, test, down]), eval_seq, eval_cmd]
  split_ifs <;> simp [Result.andThen, eval]

theorem configured_active {ok k : Bool} {s r : Host}
    (next : eval (shell w) (.call configureRabbitmq) ok s = .next r k) : w.active = true := by
  by_contra inactive
  obtain ⟨r₁, k₁, told, goes⟩ := goes_seq rfl (goes_call (.inl ⟨k, next⟩))
  obtain ⟨r₂, k₂, saved, goes⟩ := goes_seq rfl goes
  obtain ⟨r₃, k₃, started, -⟩ := goes_seq rfl goes
  have rest : eval (shell w) configureRabbitmq ok s =
      eval (shell w) (.seq checkActive (.ret true)) k₃ r₃ := by
    rw [configureRabbitmq, eval_seq_of_next told, eval_seq_of_next saved,
      eval_seq_of_next started]
  have fails := checkActive_fails w (Bool.eq_false_iff.mpr inactive) k₃ r₃ r
  rcases (eval_call_next.mp next).2 with through | back
  · exact fails.1 (rest ▸ through)
  · exact fails.2 (rest ▸ back)

def heredocPaths : List String := [confPath, optimizedPath, monitorPath, consumerPath, guidePath]

/-- When the script ends well, the service was found active, every here-document is in its
place and cron runs the monitor. -/
theorem completed_setup_in_place {s : Host}
    (done : (eval (shell w) rabbitmqSetup true s).success = true) :
    w.active = true ∧
      (∀ path ∈ heredocPaths,
        (eval (shell w) rabbitmqSetup true s).state.files path = some (w.heredoc path)) ∧
      ∃ before, (eval (shell w) rabbitmqSetup true s).state.files cronPath =
        some (before ++ cronLine ++ "\n") := by
  have next := Result.success_iff.mp done
  refine ⟨?_, fun path listed => ?_, ?_⟩
  · rw [eval_straight] at next
    obtain ⟨_, _, -, goes⟩ := goes_seq rfl (.inl ⟨true, next⟩)
    obtain ⟨_, _, -, goes⟩ := goes_seq rfl goes
    obtain ⟨_, _, -, goes⟩ := goes_seq rfl (goes_call goes)
    obtain ⟨_, _, configured, -⟩ := goes_seq rfl goes
    exact configured_active w configured
  · have makes (s : Host) : (effect w (.cat path) s).files path = some (w.heredoc path) :=
      if_pos rfl
    have settled : ∀ path ∈ heredocPaths, straight.settles (fun d => d == .cat path)
        (fun d => !touches path d) (fun _ => true) = true := by decide +kernel
    exact completed_file w (P := fun text => text = some (w.heredoc path)) makes
      (settled path listed) (body_untouched w path) next
  · have makes (s : Host) : ∃ before, (effect w (.append cronPath cronLine) s).files cronPath =
        some (before ++ cronLine ++ "\n") := ⟨(s.files cronPath).getD "", by simp [effect, setFile]⟩
    have settled : straight.settles (fun d => d == .append cronPath cronLine)
        (fun d => !touches cronPath d) (fun _ => true) = true := by decide +kernel
    exact completed_file w (P := fun text => ∃ before, text = some (before ++ cronLine ++ "\n"))
      makes settled (body_untouched w cronPath) next

theorem calmWorld_in_place :
    (eval (shell calmWorld) rabbitmqSetup true bareHost).state.files monitorPath =
      some monitorPath := by
  have done : (eval (shell calmWorld) rabbitmqSetup true bareHost).success = true := by
    decide +kernel
  exact (completed_setup_in_place calmWorld done).2.1 monitorPath (by decide)

end Completed

section Undisturbed
variable {w : World}

structure Succeeds (w : World) : Prop where
  root : w.root = true
  active : w.active = true
  faultless : ∀ c, w.faults c = none

theorem exec_undisturbed (calm : Succeeds w) (c : Command) (s : Host) :
    exec w c s = (effect w c s, true) := by
  simp only [exec, calm.faultless]

/-- A plain part of the script comes to its end and leaves a file alone that none of its
commands touches. -/
theorem eval_untouched (calm : Succeeds w) {p : Setup} (plain : p.plain = true)
    (paths : List String) (free : p.cmds.all (fun c => paths.all fun path => !touches path c))
    (ok : Bool) (s : Host) :
    ∃ s', eval (shell w) p ok s = .next s' true ∧ ∀ path ∈ paths, s'.files path = s.files path := by
  have sure (c : Command) (s : Host) : ((shell w).exec c s).2 = true :=
    congrArg Prod.snd (exec_undisturbed calm c s)
  obtain ⟨s', done⟩ := eval_plain sure plain ok s
  refine ⟨s', done, fun path listed => ?_⟩
  refine eval_kept (I := fun t : Host => t.files path = s.files path)
    (fun c own r r' same ran => ?_) (fun l _ r₀ c own r r' same ran => ?_) rfl (.inl ⟨true, done⟩)
  · have apart := List.all_eq_true.mp (List.all_eq_true.mp free c own) path listed
    rw [exec_ok w ran, effect_untouched w (by simpa using apart), same]
  · rw [exec_ok w ran, effect_untouched w (body_untouched w path l r₀ c own), same]

theorem eval_command (calm : Succeeds w) (c : Command) (ok : Bool) (s : Host) :
    eval (shell w) (.cmd c) ok s = .next (effect w c s) true := by
  have ran : (shell w).exec c s = (effect w c s, true) := exec_undisturbed calm c s
  rw [eval_cmd, ran]
  rfl

theorem saveConf_files (calm : Succeeds w) (ok : Bool) (s : Host) :
    ∃ s', eval (shell w) saveConf ok s = .next s' true ∧
      s'.files originalPath = (s.files confPath).or (s.files originalPath) := by
  cases conf : s.files confPath with
  | none =>
    refine ⟨s, ?_, rfl⟩
    rw [saveConf, eval_branch, if_neg (by simp [shell, test, conf])]
    rfl
  | some text =>
    let moved := effect w (.mv confPath originalPath) s
    have there : moved.files originalPath = some text := conf
    obtain ⟨s', told, same⟩ := eval_untouched calm
      (p := .block [.echo "已备份原始配置到 /etc/rabbitmq/rabbitmq.conf.original"]) rfl
      [originalPath] (by decide) true moved
    refine ⟨s', ?_, ?_⟩
    · rw [saveConf, eval_branch, if_pos (by simp [shell, test, conf])]
      exact (eval_seq_of_next (eval_command calm _ true s)).trans told
    · rw [same originalPath (by simp), there, Option.some_or]

theorem startRabbitmq_files (calm : Succeeds w) (ok : Bool) (s : Host) :
    ∃ s', eval (shell w) startRabbitmq ok s = .next s' true ∧
      s'.files confPath = some (w.heredoc confPath) ∧
      s'.files originalPath = s.files originalPath := by
  obtain ⟨s', done, same⟩ := eval_untouched calm (p := .block startCommands.tail) rfl
    [confPath, originalPath] (by decide +kernel) true (effect w (.cat confPath) s)
  refine ⟨s', (eval_seq_of_next (eval_command calm _ ok s)).trans done, ?_, ?_⟩
  · rw [same confPath (by simp)]
    rfl
  · rw [same originalPath (by simp)]
    rfl

theorem configureRabbitmq_files (calm : Succeeds w) (ok : Bool) (s : Host) :
    ∃ s', eval (shell w) (.call configureRabbitmq) ok s = .next s' true ∧
      s'.files confPath = some (w.heredoc confPath) ∧
      s'.files originalPath = (s.files confPath).or (s.files originalPath) := by
  have told := eval_command calm (.echo "[步骤2] 配置RabbitMQ") ok s
  obtain ⟨s₁, saved, orig₁⟩ := saveConf_files calm true
    (effect w (.echo "[步骤2] 配置RabbitMQ") s)
  obtain ⟨s₂, started, conf₂, orig₂⟩ := startRabbitmq_files calm true s₁
  have checked : eval (shell w) checkActive true s₂ =
      .next (effect w (.echo "[成功] RabbitMQ服务已启动") s₂) true := by
    rw [checkActive, eval_branch, if_pos (by simp [shell, test, calm.active]), eval_command calm]
  refine ⟨effect w (.echo "[成功] RabbitMQ服务已启动") s₂, ?_, conf₂, orig₂.trans orig₁⟩
  rw [eval_call, configureRabbitmq, eval_seq_of_next told, eval_seq_of_next saved,
    eval_seq_of_next started, eval_seq_of_next checked]
  rfl

/-- A run of the whole script in which nothing fails moves the configuration to its backup, if
there is one, and writes its own. -/
theorem undisturbed_files (calm : Succeeds w) (s : Host) :
    ∃ s', eval (shell w) rabbitmqSetup true s = .next s' true ∧
      s'.files confPath = some (w.heredoc confPath) ∧
      s'.files originalPath = (s.files confPath).or (s.files originalPath) := by
  have both : ∀ p : Setup, p.plain = true →
      p.cmds.all (fun c => [confPath, originalPath].all fun path => !touches path c) = true →
      ∀ ok s, ∃ s', eval (shell w) p ok s = .next s' true ∧
        s'.files confPath = s.files confPath ∧ s'.files originalPath = s.files originalPath := by
    intro p plain free ok s
    obtain ⟨s', done, same⟩ := eval_untouched calm plain _ free ok s
    exact ⟨s', done, same _ (by simp), same _ (by simp)⟩
  obtain ⟨s₁, greeted, conf₁, orig₁⟩ := both greeting rfl (by decide +kernel) true s
  obtain ⟨s₂, installed, conf₂, orig₂⟩ := both installIfMissing rfl (by decide +kernel) true s₁
  obtain ⟨s₃, configured, conf₃, orig₃⟩ := configureRabbitmq_files calm true s₂
  obtain ⟨s₄, finished, conf₄, orig₄⟩ := both finishSetup rfl (by decide +kernel) true s₃
  have root : eval (shell w) requireRoot true s = .next s true := by
    rw [requireRoot, eval_branch, if_neg (by simp [shell, test, calm.root])]
    rfl
  refine ⟨s₄, ?_, conf₄.trans conf₃, ?_⟩
  · rw [eval_straight, straight, eval_seq_of_next root, eval_seq_of_next greeted, eval_call,
      eval_seq_of_next installed, eval_seq_of_next configured, finished]
    rfl
  · rw [orig₄, orig₃, conf₂, conf₁, orig₂, orig₁]

end Undisturbed

end LempStack.RabbitmqSetup

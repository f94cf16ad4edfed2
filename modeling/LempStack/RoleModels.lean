import LempStack.NginxSites
import LempStack.PerconaRole
import LempStack.PhpMyAdminRole
import LempStack.RoleReruns

/-! The nginx, percona and phpMyAdmin roles are modelled twice: by what they do to a host of
their own, and as parts of a play over all the services. Both models of a role have the same
tasks. The percona and phpMyAdmin models have no files in common; those of the nginx role
have, and runs that nothing disturbs leave the same texts in them. -/

namespace LempStack.RoleModels
open PlayRun ServiceConfig SettledPlay RoleServices NginxSites RoleReruns

section Tasks
variable (w : Vars)

def nginxTitle : NginxRole.Task → String
  | .addKey => "添加Nginx官方仓库密钥"
  | .addRepo => "添加Nginx官方仓库"
  | .updateCache => "更新apt缓存"
  | .installNginx => "安装Nginx"
  | .installModsecurity => "安装ModSecurity依赖"
  | .cloneCrs => "从GitHub克隆OWASP ModSecurity核心规则集"
  | .copyCrsSetup => "复制ModSecurity推荐配置"
  | .createModsecurityDir => "创建ModSecurity配置目录"
  | .createModsecurityConf => "创建ModSecurity主配置"
  | .enableModsecurity => "启用ModSecurity在Nginx中"
  | .createNginxConf => "创建Nginx主配置"
  | .ensureSitesAvailable => "确保nginx sites-available目录存在"
  | .ensureSitesEnabled => "确保nginx sites-enabled目录存在"
  | .createDefaultSite => "创建Nginx默认站点配置"
  | .enableDefaultSite => "启用Nginx默认站点"
  | .createSites => "创建定义的网站配置"
  | .enableSites => "启用定义的网站"
  | .createRoots => "创建网站根目录"
  | .createIndex => "为每个网站创建index.html测试文件"
  | .startNginx => "启用Nginx服务"

/-- The block is left out of the play where it is not wanted. -/
theorem nginxTasks_names :
    (nginxTasks w).map Task.name =
      (NginxRole.roleTasks.filter fun t =>
        w.nginxInstallModsecurity || !NginxRole.inBlock t).map fun t => (.nginx, nginxTitle t) := by
  unfold nginxTasks
  cases w.nginxInstallModsecurity <;> rfl

def perconaTitle : PerconaRole.Task → String
  | .downloadRelease => "下载percona-release包"
  | .installRelease => "安装percona-release包及其依赖"
  | .setupRepo => "设置Percona Server仓库"
  | .updateCache => "更新apt缓存"
  | .installPercona => "安装Percona Server和相关工具"
  | .checkRootPassword => "检查MySQL root密码是否已设置"
  | .setRootPassword => "设置MySQL root密码"
  | .createMyCnf => "创建.my.cnf文件"
  | .removeAnonymous => "移除匿名用户"
  | .removeTestDatabase => "移除测试数据库"
  | .createAppDatabase => "创建应用数据库"
  | .createAppUser => "创建数据库用户并授权"
  | .configureServer => "配置MySQL服务器"
  | .enableService => "启用MySQL服务"

theorem perconaTasks_names :
    (perconaTasks w).map Task.name =
      PerconaRole.roleTasks.map fun t => (.percona, perconaTitle t) := rfl

def phpmyadminTitle : PhpMyAdminRole.Task → String
  | .checkInstalled => "检查是否安装 phpMyAdmin"
  | .setVersion => "设置具体的 phpMyAdmin 版本（如果指定为\"latest\"）"
  | .createDir => "创建 phpMyAdmin 目录"
  | .unarchive => "下载并解压 phpMyAdmin"
  | .findExtracted => "查找解压后的目录"
  | .initFiles => "初始化 phpmyadmin_extracted_dir.files"
  | .copyFiles => "复制 phpMyAdmin 文件到目标目录"
  | .removeExtracted => "删除临时解压目录"
  | .createConfig => "创建 phpMyAdmin 配置文件"
  | .createTmp => "创建临时目录"
  | .configureNginx => "配置 Nginx 虚拟主机"
  | .setPermissions => "设置正确的权限"

theorem phpmyadminTasks_names :
    (phpmyadminTasks w).map Task.name =
      PhpMyAdminRole.roleTasks.map fun t => (.phpmyadmin, phpmyadminTitle t) := rfl

end Tasks

section Nginx
variable {v : NginxRole.Vars} {w : Vars}

structure Corresponds (v : NginxRole.Vars) (w : Vars) : Prop where
  modsecurity : w.nginxInstallModsecurity = v.nginxInstallModsecurity
  defaultSite : w.nginxDefaultSiteEnabled = v.nginxDefaultSiteEnabled
  websites : w.websites = (NginxRole.items v).map (·.name)
  render : w.render = v.render
  vhost : ∀ item ∈ NginxRole.items v, v.vhost item = v.render (NginxRole.availablePath item.name)

/-- The files of nginx are in the second model what they are in the first. -/
structure Shows (h : NginxRole.Host) (g : ServiceHost) : Prop where
  nginxConf : g.conf .nginx "/etc/nginx/nginx.conf" = h.sites.nginxConf
  available : ∀ n, g.conf .nginx (NginxRole.availablePath n) = h.sites.available n
  link : ∀ n, g.conf .nginx (NginxRole.enabledPath n) = h.sites.link n
  modsecConf : g.conf .nginx "/etc/nginx/modsecurity/modsecurity.conf" = h.modsec.conf
  modsecEnabled : g.conf .nginx "/etc/nginx/conf.d/modsecurity.conf" = h.modsec.enabled

def Unlisted (w : Vars) (path : String) : Prop :=
  ∀ i ∈ itemsOf (nginxTasks w), i.service = .nginx → i.path ≠ path

theorem available_ne {path : String}
    (apart : "/etc/nginx/sites-available/".toList.isPrefixOf path.toList = false) (n : String) :
    NginxRole.availablePath n ≠ path :=
  (ne_append_of_not_begins apart n).symm

theorem enabled_ne {path : String}
    (apart : "/etc/nginx/sites-enabled/".toList.isPrefixOf path.toList = false) (n : String) :
    NginxRole.enabledPath n ≠ path :=
  (ne_append_of_not_begins apart n).symm

theorem available_ne_enabled (n m : String) : NginxRole.availablePath n ≠ NginxRole.enabledPath m :=
  ne_append_of_not_begins (available_free n) m

section Items
variable (same : Corresponds v w)
include same

theorem enables_iff (n : String) :
    Enables v n ↔ w.nginxDefaultSiteEnabled = true ∧ n = "default" ∨ n ∈ w.websites := by
  rw [Enables, same.websites, same.defaultSite, List.mem_map, or_comm]

theorem mem_items {i : Item Service String String} :
    i ∈ itemsOf (nginxTasks w) ↔
      (v.nginxInstallModsecurity = true ∧
        (i = item w .nginx "/etc/nginx/modsecurity/modsecurity.conf" ∨
          i = item w .nginx "/etc/nginx/conf.d/modsecurity.conf")) ∨
      i = item w .nginx "/etc/nginx/nginx.conf" ∨
      ∃ n, Enables v n ∧ (i = item w .nginx (NginxRole.availablePath n) ∨ i = linkItem n) := by
  have block : itemsOf (if w.nginxInstallModsecurity then modsecurityTasks w else []) =
      if v.nginxInstallModsecurity then
        [item w .nginx "/etc/nginx/modsecurity/modsecurity.conf",
          item w .nginx "/etc/nginx/conf.d/modsecurity.conf"]
      else [] := by
    rw [same.modsecurity]
    split_ifs <;> rfl
  have parts : itemsOf (nginxTasks w) =
      itemsOf (if w.nginxInstallModsecurity then modsecurityTasks w else []) ++
      (item w .nginx "/etc/nginx/nginx.conf" ::
      ((if w.nginxDefaultSiteEnabled then
          [item w .nginx (NginxRole.availablePath "default")] else []) ++
      ((if w.nginxDefaultSiteEnabled then [linkItem "default"] else []) ++
      (w.websites.map (fun n => item w .nginx (NginxRole.availablePath n)) ++
        w.websites.map linkItem)))) := by
    have site : "/etc/nginx/sites-available/default" = NginxRole.availablePath "default" := by
      decide
    simp only [itemsOf, nginxTasks, List.flatMap_append, List.flatMap_cons, List.flatMap_nil,
      other, install, nginxWrite, Body.writes, List.nil_append, List.append_nil,
      List.append_assoc, List.singleton_append, site]
    rfl
  rw [parts, block]
  simp only [enables_iff same, List.mem_append, List.mem_cons, List.mem_map,
    List.mem_ite_nil_right, List.not_mem_nil, or_false, or_and_right, and_or_left, exists_or,
    and_assoc, exists_and_left, exists_eq_left, or_assoc, @eq_comm _ i]
  -- the link of the default site comes ahead of the other sites' files
  exact or_congr_right (or_congr_right (or_congr_right (or_congr_right or_left_comm)))

theorem unlisted_of_ne {path : String} (main : path ≠ "/etc/nginx/nginx.conf")
    (block : v.nginxInstallModsecurity = true →
      path ≠ "/etc/nginx/modsecurity/modsecurity.conf" ∧
        path ≠ "/etc/nginx/conf.d/modsecurity.conf")
    (sites : ∀ n, Enables v n →
      path ≠ NginxRole.availablePath n ∧ path ≠ NginxRole.enabledPath n) : Unlisted w path := by
  intro i listed _ here
  subst here
  rcases (mem_items same).mp listed with ⟨wanted, rfl | rfl⟩ | rfl | ⟨n, enabled, rfl | rfl⟩
  · exact (block wanted).1 rfl
  · exact (block wanted).2 rfl
  · exact main rfl
  · exact (sites n enabled).1 rfl
  · exact (sites n enabled).2 rfl

theorem site_unlisted {n : String} (left : ¬ Enables v n) :
    Unlisted w (NginxRole.availablePath n) ∧ Unlisted w (NginxRole.enabledPath n) := by
  have other {base : String} {m : String} (enabled : Enables v m) : base ++ n ≠ base ++ m :=
    fun path => left (append_inj_right path ▸ enabled)
  constructor
  · refine unlisted_of_ne same (available_ne (by decide) n) (fun _ => ?_) fun m enabled => ?_
    · exact ⟨available_ne (by decide) n, available_ne (by decide) n⟩
    · exact ⟨other enabled, available_ne_enabled n m⟩
  · refine unlisted_of_ne same (enabled_ne (by decide) n) (fun _ => ?_) fun m enabled => ?_
    · exact ⟨enabled_ne (by decide) n, enabled_ne (by decide) n⟩
    · exact ⟨(available_ne_enabled m n).symm, other enabled⟩

theorem block_unlisted (unwanted : v.nginxInstallModsecurity = false) {path : String}
    (main : path ≠ "/etc/nginx/nginx.conf")
    (available : "/etc/nginx/sites-available/".toList.isPrefixOf path.toList = false)
    (enabled : "/etc/nginx/sites-enabled/".toList.isPrefixOf path.toList = false) :
    Unlisted w path := by
  refine unlisted_of_ne same main (fun wanted => ?_) fun n _ => ?_
  · rw [unwanted] at wanted
    cases wanted
  · exact ⟨(available_ne available n).symm, (enabled_ne enabled n).symm⟩

theorem siteText_enabled {n : String} (enabled : Enables v n) :
    siteText v n = some (w.render (NginxRole.availablePath n)) := by
  rcases last : SitePages.lastNamed (NginxRole.items v) n with _ | site
  · rw [Enables, ← SitePages.lastNamed_isSome, last] at enabled
    obtain ⟨wanted, rfl⟩ := enabled.resolve_left (by simp)
    rw [siteText, last, same.render]
    simp [wanted]
  · obtain ⟨listed, rfl⟩ := SitePages.lastNamed_mem last
    rw [siteText, last, same.render, ← same.vhost site listed]
    rfl

end Items

theorem siteText_other {n : String} (left : ¬ Enables v n) : siteText v n = none := by
  rw [Enables, ← SitePages.lastNamed_isSome, not_or] at left
  rw [siteText, Option.not_isSome_iff_eq_none.mp left.1, if_neg left.2]
  rfl

theorem sitesAfter_link_other (s : NginxRole.SiteFiles) {n : String} (left : ¬ Enables v n) :
    (SitePages.sitesAfter v s).link n = s.link n := by
  rw [Enables, ← SitePages.lastNamed_isSome] at left
  exact if_neg left

theorem services_run (idle : ∀ name, w.packageWork name = []) (g : ServiceHost) :
    ∃ g', run ⟨w, [.nginx], fun _ => none⟩ g = .ok g' ∧
      (∀ i ∈ itemsOf (nginxTasks w), OnDisk g' i) ∧
      ∀ path, Unlisted w path → g'.conf .nginx path = g.conf .nginx path := by
  have tasks : Run.tasks ⟨w, [.nginx], fun _ => none⟩ = nginxTasks w := by
    simp [Run.tasks, roleTasks]
  have agree : Agreeing (itemsOf (nginxTasks w)) := by
    refine agreeing_of_sorted w fun i listed => ?_
    obtain ⟨t, task, own⟩ := List.mem_flatMap.mp listed
    exact nginxTasks_neat w t task i own
  rw [run, tasks]
  obtain ⟨g', ok, written, kept⟩ :=
    runPlay_files (fun _ => rfl) (roleTasks_installed w idle .nginx) agree g
  exact ⟨g', ok, written, kept .nginx⟩

section Files
variable {g g' : ServiceHost} (same : Corresponds v w)
  (written : ∀ i ∈ itemsOf (nginxTasks w), OnDisk g' i)
  (kept : ∀ path, Unlisted w path → g'.conf .nginx path = g.conf .nginx path)
include same written kept

theorem available_after (n : String) :
    g'.conf .nginx (NginxRole.availablePath n) =
      (siteText v n).or (g.conf .nginx (NginxRole.availablePath n)) := by
  by_cases enabled : Enables v n
  · have on := written _ ((mem_items same).mpr (.inr (.inr ⟨n, enabled, .inl rfl⟩)))
    rw [siteText_enabled same enabled]
    exact on
  · rw [siteText_other enabled, Option.none_or]
    exact kept _ (site_unlisted same enabled).1

theorem block_after {path : String}
    (listed : v.nginxInstallModsecurity = true → item w .nginx path ∈ itemsOf (nginxTasks w))
    (main : path ≠ "/etc/nginx/nginx.conf")
    (available : "/etc/nginx/sites-available/".toList.isPrefixOf path.toList = false)
    (enabled : "/etc/nginx/sites-enabled/".toList.isPrefixOf path.toList = false) :
    g'.conf .nginx path =
      if v.nginxInstallModsecurity then some (v.render path) else g.conf .nginx path := by
  split_ifs with wanted
  · have on := written _ (listed wanted)
    rw [OnDisk, item, same.render] at on
    exact on
  · exact kept path
      (block_unlisted same (Bool.eq_false_iff.mpr wanted) main available enabled)

end Files

/-- From hosts that show the same files, runs that nothing disturbs end in such hosts. -/
theorem nginx_models_agree (same : Corresponds v w) (idle : ∀ name, w.packageWork name = [])
    {h : NginxRole.Host} {g : ServiceHost} (shows : Shows h g)
    (free : SitePages.Unobstructed v h.sites) :
    ∃ h' g', NginxRole.run ⟨v, fun _ => none⟩ h = .ok h' ∧
      run ⟨w, [.nginx], fun _ => none⟩ g = .ok g' ∧ Shows h' g' := by
  obtain ⟨g', ok, written, kept⟩ := services_run idle g
  refine ⟨_, g', undisturbed_run v free, ok, ?_, fun n => ?_, fun n => ?_, ?_, ?_⟩
  · have on := written _ ((mem_items same).mpr (.inr (.inl rfl)))
    rw [OnDisk, item, same.render] at on
    exact on
  · rw [sitesAfter_available, available_after same written kept, shows.available]
  · by_cases enabled : Enables v n
    · have on := written _ ((mem_items same).mpr (.inr (.inr ⟨n, enabled, .inr rfl⟩)))
      rw [(sitesAfter_enabled v h.sites enabled).1]
      exact on
    · rw [sitesAfter_link_other h.sites enabled, ← shows.link n]
      exact kept _ (site_unlisted same enabled).2
  · rw [block_after same written kept
      (fun wanted => (mem_items same).mpr (.inl ⟨wanted, .inl rfl⟩)) (by decide) (by decide)
      (by decide), shows.modsecConf, SitePages.modsecAfter]
    split_ifs <;> rfl
  · rw [block_after same written kept
      (fun wanted => (mem_items same).mpr (.inl ⟨wanted, .inr rfl⟩)) (by decide) (by decide)
      (by decide), shows.modsecEnabled, SitePages.modsecAfter]
    split_ifs <;> rfl

end Nginx

end LempStack.RoleModels

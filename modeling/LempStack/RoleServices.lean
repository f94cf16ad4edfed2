import LempStack.ServiceConfig

/-! The seven roles as plays over the services they configure, task by task and under
the names the tasks have. What a template renders to is a function of its destination
in the run; what a package operation does to the services is an input of the run too,
so installing, upgrading and doing nothing are all covered. A task that touches no
service is `other`, and a loop over an undefined or empty list has no items. -/

namespace LempStack.RoleServices
open ServiceConfig

inductive Service where
  | nginx
  | phpFpm (version : String)
  | mysql
  | valkey
  | varnish
  | opensearch
  deriving DecidableEq, Repr

inductive Role where
  | nginx
  | php
  | percona
  | valkey
  | varnish
  | opensearch
  | phpmyadmin
  deriving DecidableEq, Repr

inductive Handler where
  | restartNginx
  | restartPhpFpm
  | restartMysql
  | restartValkey
  | restartVarnish
  | reloadSystemd
  | restartOpensearch
  deriving DecidableEq, Repr

abbrev TaskName := Role × String

abbrev RoleTask := Task TaskName Service String String Handler

abbrev ServiceHost := Host Service String String

abbrev RolePlay := Play Service String String Handler

-- `render` is what a template renders to, by its destination; `packageWork` what the package
-- manager does to the services in a task; `websites` the names
structure Vars where
  render : String → String
  packageWork : TaskName → List (PackageWork Service String String)
  nginxInstallModsecurity : Bool
  nginxDefaultSiteEnabled : Bool
  websites : List String
  phpVersions : List String
  varnishVclPath : String
  varnishConfigPath : String
  varnishSystemdConfigPath : String
  varnishEnabled : Bool
  phpmyadminInstall : Bool
  phpmyadminNginxConfigPath : String

section Tasks
variable (v : Vars)

def other (role : Role) (name : String) : RoleTask := ⟨(role, name), .other⟩

def install (role : Role) (name : String) : RoleTask :=
  ⟨(role, name), .package (v.packageWork (role, name))⟩

def item (service : Service) (path : String) : Item Service String String :=
  ⟨service, path, v.render path⟩

/-- A link is a file whose content is its target. -/
def linkItem (name : String) : Item Service String String :=
  ⟨.nginx, "/etc/nginx/sites-enabled/" ++ name, "/etc/nginx/sites-available/" ++ name⟩

def nginxWrite (role : Role) (name : String) (items : List (Item Service String String)) :
    RoleTask :=
  ⟨(role, name), .write items [.restartNginx]⟩

def modsecurityTasks : List RoleTask :=
  [⟨(.nginx, "安装ModSecurity依赖"), .tolerant (v.packageWork (.nginx, "安装ModSecurity依赖"))⟩,
    other .nginx "从GitHub克隆OWASP ModSecurity核心规则集",
    other .nginx "复制ModSecurity推荐配置",
    other .nginx "创建ModSecurity配置目录",
    nginxWrite .nginx "创建ModSecurity主配置"
      [item v .nginx "/etc/nginx/modsecurity/modsecurity.conf"],
    nginxWrite .nginx "启用ModSecurity在Nginx中" [item v .nginx "/etc/nginx/conf.d/modsecurity.conf"]]

def nginxTasks : List RoleTask :=
  [other .nginx "添加Nginx官方仓库密钥",
    other .nginx "添加Nginx官方仓库",
    other .nginx "更新apt缓存",
    install v .nginx "安装Nginx"] ++
  (if v.nginxInstallModsecurity then modsecurityTasks v else []) ++
  [nginxWrite .nginx "创建Nginx主配置" [item v .nginx "/etc/nginx/nginx.conf"],
    other .nginx "确保nginx sites-available目录存在",
    other .nginx "确保nginx sites-enabled目录存在",
    nginxWrite .nginx "创建Nginx默认站点配置"
      (if v.nginxDefaultSiteEnabled then [item v .nginx "/etc/nginx/sites-available/default"]
        else []),
    nginxWrite .nginx "启用Nginx默认站点"
      (if v.nginxDefaultSiteEnabled then [linkItem "default"] else []),
    nginxWrite .nginx "创建定义的网站配置"
      (v.websites.map fun name => item v .nginx ("/etc/nginx/sites-available/" ++ name)),
    nginxWrite .nginx "启用定义的网站" (v.websites.map linkItem),
    other .nginx "创建网站根目录",
    other .nginx "为每个网站创建index.html测试文件",
    ⟨(.nginx, "启用Nginx服务"), .start [.nginx]⟩]

def phpWrite (name file : String) : RoleTask :=
  ⟨(.php, name), .write
    (v.phpVersions.map fun version =>
      item v (.phpFpm version) ("/etc/php/" ++ version ++ "/fpm/" ++ file)) [.restartPhpFpm]⟩

def phpTasks : List RoleTask :=
  [other .php "添加PHP仓库",
    other .php "手动接受仓库更改",
    other .php "更新apt缓存",
    other .php "确保debconf-utils已安装",
    install v .php "安装PHP基础包",
    install v .php "安装PHP扩展",
    phpWrite v "配置PHP.ini" "php.ini",
    phpWrite v "配置PHP-FPM www.conf" "pool.d/www.conf",
    other .php "创建PHP信息页",
    ⟨(.php, "确保PHP-FPM服务已启动并设置为开机启动"), .start (v.phpVersions.map .phpFpm)⟩,
    other .php "安装Composer",
    other .php "为所有用户安装全局Composer包"]

def perconaTasks : List RoleTask :=
  [other .percona "下载percona-release包",
    other .percona "安装percona-release包及其依赖",
    other .percona "设置Percona Server仓库",
    other .percona "更新apt缓存",
    install v .percona "安装Percona Server和相关工具",
    ⟨(.percona, "检查MySQL root密码是否已设置"), .tolerant []⟩,
    other .percona "设置MySQL root密码",
    other .percona "创建.my.cnf文件",
    other .percona "移除匿名用户",
    other .percona "移除测试数据库",
    other .percona "创建应用数据库",
    other .percona "创建数据库用户并授权",
    ⟨(.percona, "配置MySQL服务器"),
      .write [item v .mysql "/etc/mysql/conf.d/mysql.cnf"] [.restartMysql]⟩,
    ⟨(.percona, "启用MySQL服务"), .start [.mysql]⟩]

def valkeyWrite (name path : String) : RoleTask :=
  ⟨(.valkey, name), .write [item v .valkey path] [.restartValkey]⟩

def valkeyTasks : List RoleTask :=
  [other .valkey "添加Valkey仓库密钥",
    other .valkey "添加Valkey仓库",
    other .valkey "更新apt缓存",
    install v .valkey "安装Valkey",
    other .valkey "创建Valkey配置目录",
    valkeyWrite v "创建Valkey配置文件" "/etc/valkey/valkey.conf",
    valkeyWrite v "创建Valkey服务配置" "/etc/systemd/system/valkey.service",
    ⟨(.valkey, "启用Valkey服务"), .start [.valkey]⟩]

def varnishWrite (name path : String) (notify : List Handler) : RoleTask :=
  ⟨(.varnish, name), .write [item v .varnish path] notify⟩

def varnishTasks : List RoleTask :=
  [other .varnish "确保apt缓存已更新",
    other .varnish "安装必要的依赖",
    other .varnish "添加Varnish GPG密钥",
    other .varnish "添加Varnish存储库",
    other .varnish "更新apt缓存",
    install v .varnish "安装Varnish",
    install v .varnish "安装额外的Varnish包",
    other .varnish "创建Varnish VCL目录",
    varnishWrite v "配置默认VCL" (v.varnishVclPath ++ "/default.vcl") [.restartVarnish],
    varnishWrite v "配置Varnish" v.varnishConfigPath [.restartVarnish],
    varnishWrite v "配置Varnish systemd服务" v.varnishSystemdConfigPath
      [.reloadSystemd, .restartVarnish],
    ⟨(.varnish, "确保Varnish服务已启用并运行"),
      if v.varnishEnabled then .start [.varnish] else .stop [.varnish]⟩,
    other .varnish "配置Varnish NCSA日志服务",
    other .varnish "检查Varnish版本",
    other .varnish "显示Varnish版本"]

/-- The two templates notify nobody. -/
def opensearchTasks : List RoleTask :=
  [other .opensearch "添加OpenSearch GPG密钥",
    other .opensearch "添加OpenSearch仓库",
    other .opensearch "更新apt缓存",
    install v .opensearch "安装OpenSearch",
    other .opensearch "创建OpenSearch配置目录",
    ⟨(.opensearch, "配置OpenSearch"),
      .write [item v .opensearch "/etc/opensearch/opensearch.yml"] []⟩,
    ⟨(.opensearch, "配置JVM选项"), .write [item v .opensearch "/etc/opensearch/jvm.options"] []⟩,
    ⟨(.opensearch, "确保OpenSearch服务已启动并启用"), .start [.opensearch]⟩]

-- `config.inc.php` is no file of a service, and has a new random secret in each run
def phpmyadminTasks : List RoleTask :=
  [other .phpmyadmin "检查是否安装 phpMyAdmin",
    other .phpmyadmin "设置具体的 phpMyAdmin 版本（如果指定为\"latest\"）",
    other .phpmyadmin "创建 phpMyAdmin 目录",
    other .phpmyadmin "下载并解压 phpMyAdmin",
    other .phpmyadmin "查找解压后的目录",
    other .phpmyadmin "初始化 phpmyadmin_extracted_dir.files",
    other .phpmyadmin "复制 phpMyAdmin 文件到目标目录",
    other .phpmyadmin "删除临时解压目录",
    other .phpmyadmin "创建 phpMyAdmin 配置文件",
    other .phpmyadmin "创建临时目录",
    nginxWrite .phpmyadmin "配置 Nginx 虚拟主机"
      (if v.phpmyadminInstall then [item v .nginx v.phpmyadminNginxConfigPath] else []),
    other .phpmyadmin "设置正确的权限"]

def roleTasks : Role → List RoleTask
  | .nginx => nginxTasks v
  | .php => phpTasks v
  | .percona => perconaTasks v
  | .valkey => valkeyTasks v
  | .varnish => varnishTasks v
  | .opensearch => opensearchTasks v
  | .phpmyadmin => phpmyadminTasks v

def targets : Handler → List Service
  | .restartNginx => [.nginx]
  | .restartPhpFpm => v.phpVersions.map .phpFpm
  | .restartMysql => [.mysql]
  | .restartValkey => [.valkey]
  | .restartVarnish => [.varnish]
  | .reloadSystemd => []
  | .restartOpensearch => [.opensearch]

def handlerName : Handler → TaskName
  | .restartNginx => (.nginx, "restart nginx")
  | .restartPhpFpm => (.php, "restart php-fpm")
  | .restartMysql => (.percona, "restart mysql")
  | .restartValkey => (.valkey, "restart valkey")
  | .restartVarnish => (.varnish, "restart varnish")
  | .reloadSystemd => (.varnish, "reload systemd")
  | .restartOpensearch => (.opensearch, "restart opensearch")

def handlers : List Handler :=
  [.restartNginx, .restartPhpFpm, .restartMysql, .restartValkey, .restartVarnish,
    .reloadSystemd, .restartOpensearch]

end Tasks

structure Run where
  vars : Vars
  roles : List Role
  faults : TaskName → Option (ℕ → Bool)

def Run.tasks (r : Run) : List RoleTask := r.roles.flatMap (roleTasks r.vars)

def Run.faultOf (r : Run) (t : RoleTask) : Option (ℕ → Bool) := r.faults t.name

def run (r : Run) (h : ServiceHost) : PlayRun.Outcome ServiceHost :=
  runPlay (targets r.vars) handlerName r.tasks handlers r.faultOf h

section Coverage
variable (v : Vars)

theorem handlers_complete (hd : Handler) : hd ∈ handlers := by
  cases hd <;> decide

theorem covered_of_service {items : List (Item Service String String)} {notify : List Handler}
    (hd : Handler) (listed : hd ∈ notify) (mine : ∀ i ∈ items, i.service ∈ targets v hd) :
    Covered (targets v) handlers (.write items notify) :=
  fun i hi => ⟨hd, listed, handlers_complete hd, mine i hi⟩

theorem nginxWrite_covered (role : Role) (name : String)
    {items : List (Item Service String String)} (mine : ∀ i ∈ items, i.service = .nginx) :
    Covered (targets v) handlers (nginxWrite role name items).body :=
  covered_of_service v .restartNginx (by simp) fun i hi => by simp [mine i hi, targets]

theorem phpWrite_covered (name file : String) :
    Covered (targets v) handlers (phpWrite v name file).body := by
  refine covered_of_service v .restartPhpFpm (by simp) fun i hi => ?_
  obtain ⟨version, listed, rfl⟩ := List.mem_map.mp hi
  exact List.mem_map_of_mem listed

theorem single_covered {service : Service} {path : String} {notify : List Handler} (hd : Handler)
    (listed : hd ∈ notify) (mine : service ∈ targets v hd) :
    Covered (targets v) handlers (.write [item v service path] notify) := by
  refine covered_of_service v hd listed fun i hi => ?_
  rw [List.mem_singleton.mp hi]
  exact mine

theorem modsecurityTasks_covered :
    ∀ t ∈ modsecurityTasks v, Covered (targets v) handlers t.body := by
  simp only [modsecurityTasks, List.forall_mem_cons]
  exact ⟨trivial, trivial, trivial, trivial, nginxWrite_covered v _ _ (by simp [item]),
    nginxWrite_covered v _ _ (by simp [item]), nofun⟩

theorem nginxTasks_covered : ∀ t ∈ nginxTasks v, Covered (targets v) handlers t.body := by
  have defaultSite : ∀ i ∈ (if v.nginxDefaultSiteEnabled then
      [item v .nginx "/etc/nginx/sites-available/default"] else []), i.service = .nginx := by
    split_ifs <;> simp [item]
  have defaultLink : ∀ i ∈ (if v.nginxDefaultSiteEnabled then [linkItem "default"] else []),
      i.service = .nginx := by
    split_ifs <;> simp [linkItem]
  simp only [nginxTasks, List.forall_mem_append, List.forall_mem_cons]
  refine ⟨⟨⟨trivial, trivial, trivial, trivial, nofun⟩, ?_⟩,
    nginxWrite_covered v _ _ (by simp [item]), trivial, trivial,
    nginxWrite_covered v _ _ defaultSite, nginxWrite_covered v _ _ defaultLink,
    nginxWrite_covered v _ _ (by simp [item]), nginxWrite_covered v _ _ (by simp [linkItem]),
    trivial, trivial, trivial, nofun⟩
  split_ifs
  · exact modsecurityTasks_covered v
  · exact nofun

theorem phpTasks_covered : ∀ t ∈ phpTasks v, Covered (targets v) handlers t.body := by
  simp only [phpTasks, List.forall_mem_cons]
  exact ⟨trivial, trivial, trivial, trivial, trivial, trivial, phpWrite_covered v _ _,
    phpWrite_covered v _ _, trivial, trivial, trivial, trivial, nofun⟩

theorem perconaTasks_covered : ∀ t ∈ perconaTasks v, Covered (targets v) handlers t.body := by
  simp only [perconaTasks, List.forall_mem_cons]
  exact ⟨trivial, trivial, trivial, trivial, trivial, trivial, trivial, trivial, trivial, trivial,
    trivial, trivial, single_covered v .restartMysql (by simp) (by simp [targets]), trivial, nofun⟩

theorem valkeyTasks_covered : ∀ t ∈ valkeyTasks v, Covered (targets v) handlers t.body := by
  have write (name path : String) : Covered (targets v) handlers (valkeyWrite v name path).body :=
    single_covered v .restartValkey (by simp) (by simp [targets])
  simp only [valkeyTasks, List.forall_mem_cons]
  exact ⟨trivial, trivial, trivial, trivial, trivial, write _ _, write _ _, trivial, nofun⟩

theorem varnishTasks_covered : ∀ t ∈ varnishTasks v, Covered (targets v) handlers t.body := by
  have write (name path : String) (notify : List Handler) (listed : .restartVarnish ∈ notify) :
      Covered (targets v) handlers (varnishWrite v name path notify).body :=
    single_covered v .restartVarnish listed (by simp [targets])
  simp only [varnishTasks, List.forall_mem_cons]
  refine ⟨trivial, trivial, trivial, trivial, trivial, trivial, trivial, trivial,
    write _ _ _ (by simp), write _ _ _ (by simp), write _ _ _ (by simp), ?_, trivial, trivial,
    trivial, nofun⟩
  split_ifs <;> trivial

theorem phpmyadminTasks_covered :
    ∀ t ∈ phpmyadminTasks v, Covered (targets v) handlers t.body := by
  have site : ∀ i ∈ (if v.phpmyadminInstall then
      [item v .nginx v.phpmyadminNginxConfigPath] else []), i.service = .nginx := by
    split_ifs <;> simp [item]
  simp only [phpmyadminTasks, List.forall_mem_cons]
  exact ⟨trivial, trivial, trivial, trivial, trivial, trivial, trivial, trivial, trivial, trivial,
    nginxWrite_covered v _ _ site, trivial, nofun⟩

/-- Six of the seven roles notify a restart of the service of every file they write. -/
theorem roleTasks_covered (role : Role) (listed : role ≠ .opensearch) :
    ∀ t ∈ roleTasks v role, Covered (targets v) handlers t.body := by
  cases role with
  | nginx => exact nginxTasks_covered v
  | php => exact phpTasks_covered v
  | percona => exact perconaTasks_covered v
  | valkey => exact valkeyTasks_covered v
  | varnish => exact varnishTasks_covered v
  | opensearch => contradiction
  | phpmyadmin => exact phpmyadminTasks_covered v

end Coverage

end LempStack.RoleServices

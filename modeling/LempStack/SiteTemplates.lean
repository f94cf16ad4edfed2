import LempStack.LocationSelect

/-! The server blocks that the site templates render: `vhost.conf.j2` of the nginx
role for one item of `websites`, its `default.conf.j2`, and `nginx.conf.j2` of the
phpmyadmin role. Every location stands in the order of the template with its access
rules and content handler. Log files, certificates and buffer sizes have no part in
the choice of a location and are left out; the files under a block's root or alias
are an input. -/

namespace LempStack.SiteTemplates
open PatternSearch AccessRules LocationSelect

structure Website where
  name : String
  serverName : String
  root : String
  phpVersion : Option String
  ssl : Option Bool
  deriving DecidableEq, Repr

def phpPattern : Pattern := .seq (lit ".php".toList) .stop

def hiddenPattern : Pattern := lit "/.".toList

/-- `\.(w₁|…|wₙ)$` -/
def extensionPattern (words : List String) : Pattern :=
  .seq (.char '.') (.seq (oneOf (words.map String.toList)) .stop)

def staticWords : List String := ["jpg", "jpeg", "png", "gif", "ico", "css", "js"]

def sensitiveWords : List String := ["htaccess", "htpasswd", "ini", "log", "sh", "sql", "conf"]

/-- `/(doc|sql|setup)/` -/
def sensitiveDirPattern : Pattern :=
  .seq (.char '/') (.seq (oneOf ["doc".toList, "sql".toList, "setup".toList]) (.char '/'))

def phpSocket (version : String) : String := "unix:/var/run/php/php" ++ version ++ "-fpm.sock"

/-- The arguments of `server_name`. -/
def serverNames (text : String) : List (List Char) :=
  (text.toList.splitOnP Char.isWhitespace).filter (· ≠ [])

def indexPhp : List Char := "index.php".toList

def indexHtml : List Char := "index.html".toList

section Vhost

def vhostIndex : List (List Char) := [indexPhp, indexHtml, "index.htm".toList]

def vhostNames (item : Website) : List (List Char) := serverNames item.serverName

def sslEnabled (item : Website) : Bool := item.ssl == some true

def vhostRedirect (item : Website) : Server where
  names := vhostNames item
  locations :=
    [.under ['/']
      { index := vhostIndex,
        content := .redirect 301 [.text "https://", .host, .requestUri] } []]
  fallback := { index := vhostIndex, content := .files }

def vhostPhp (defaultPhp : String) (item : Website) : RegexLocation Conf where
  caseless := false
  pattern := phpPattern
  conf := { index := vhostIndex,
            content := .fastcgi true (phpSocket (item.phpVersion.getD defaultPhp)) }

def vhostHidden : RegexLocation Conf where
  caseless := false
  pattern := hiddenPattern
  conf := { rules := [.deny .all], index := vhostIndex, content := .files }

def vhostStatic : RegexLocation Conf where
  caseless := true
  pattern := extensionPattern staticWords
  conf := { index := vhostIndex, content := .files }

def vhostSensitive : RegexLocation Conf where
  caseless := true
  pattern := extensionPattern sensitiveWords
  conf := { rules := [.deny .all], index := vhostIndex, content := .files }

def vhostContent (defaultPhp : String) (item : Website) : Server where
  names := vhostNames item
  locations :=
    [.under ['/'] { index := vhostIndex, content := .tryFiles (.uri "/index.php".toList) } [],
     .regex (vhostPhp defaultPhp item),
     .regex vhostHidden,
     .regex vhostStatic,
     .regex vhostSensitive]
  fallback := { index := vhostIndex, content := .files }

def vhostBlocks (defaultPhp : String) (item : Website) : List (ℕ × Server) :=
  if sslEnabled item then [(80, vhostRedirect item), (443, vhostContent defaultPhp item)]
  else [(80, vhostContent defaultPhp item)]

end Vhost

section Default

def defaultIndex : List (List Char) := [indexPhp, indexHtml, "index.htm".toList]

def defaultHidden : RegexLocation Conf where
  caseless := false
  pattern := hiddenPattern
  conf := { rules := [.deny .all], index := defaultIndex, content := .files }

def defaultStatic : RegexLocation Conf where
  caseless := true
  pattern := extensionPattern staticWords
  conf := { index := defaultIndex, content := .files }

def scriptWords : List String := ["php", "phar"]

def defaultScripts : RegexLocation Conf where
  caseless := true
  pattern := extensionPattern scriptWords
  conf := { rules := [.deny .all], index := defaultIndex, content := .files }

def defaultSensitive : RegexLocation Conf where
  caseless := true
  pattern := extensionPattern sensitiveWords
  conf := { rules := [.deny .all], index := defaultIndex, content := .files }

def statusPath : List Char := "/server-status".toList

def defaultStatus : Conf where
  rules := [.allow (.net4 0x7f000001#32 32), .deny .all]
  index := defaultIndex
  content := .stubStatus

def defaultServer : Server where
  names := [['_']]
  locations :=
    [.under ['/'] { index := defaultIndex, content := .tryFiles (.code 404) } [],
     .regex defaultHidden,
     .regex defaultStatic,
     .regex defaultScripts,
     .regex defaultSensitive,
     .exact statusPath defaultStatus]
  fallback := { index := defaultIndex, content := .files }

end Default

section PhpMyAdmin

structure PmaVars where
  phpmyadminDomain : String
  phpmyadminAllowRemoteAccess : Bool
  phpmyadminAllowIps : List Range
  defaultPhpVersion : String

def pmaIndex : List (List Char) := [indexPhp, indexHtml]

def pmaPhp (v : PmaVars) : RegexLocation Conf where
  caseless := false
  pattern := phpPattern
  conf := { rules := if v.phpmyadminAllowRemoteAccess then []
              else v.phpmyadminAllowIps.map .allow ++ [.deny .all],
            index := pmaIndex,
            content := .fastcgi false (phpSocket v.defaultPhpVersion) }

def pmaHidden : RegexLocation Conf where
  caseless := false
  pattern := hiddenPattern
  conf := { rules := [.deny .all], index := pmaIndex, content := .files }

def pmaSensitive : RegexLocation Conf where
  caseless := true
  pattern := sensitiveDirPattern
  conf := { rules := [.deny .all], index := pmaIndex, content := .files }

def pmaServer (v : PmaVars) : Server where
  names := serverNames v.phpmyadminDomain
  locations :=
    [.under ['/'] { index := pmaIndex, content := .tryFiles (.code 404) } [],
     .regex (pmaPhp v),
     .regex pmaHidden,
     .regex pmaSensitive]
  fallback := { index := pmaIndex, content := .files }

def pmaPath : List Char := "/phpmyadmin/".toList

/-- `^/phpmyadmin/(.+\.php)$` -/
def pmaSubPhpPattern : Pattern :=
  .seq .start (.seq (lit pmaPath) (.seq .dots phpPattern))

/-- `^/phpmyadmin/(.+\.(jpg|…|txt))$` -/
def pmaSubStaticPattern : Pattern :=
  .seq .start (.seq (lit pmaPath) (.seq .dots (extensionPattern
    ["jpg", "jpeg", "gif", "css", "png", "js", "ico", "html", "xml", "txt"])))

def pmaSubPhp (v : PmaVars) : RegexLocation Conf where
  caseless := false
  pattern := pmaSubPhpPattern
  conf := { index := pmaIndex, content := .fastcgi false (phpSocket v.defaultPhpVersion) }

def pmaSubStatic : RegexLocation Conf where
  caseless := true
  pattern := pmaSubStaticPattern
  conf := { index := pmaIndex, content := .files }

/-- The block of `localhost`, which serves the same directory under `/phpmyadmin/`. -/
def pmaLocalhost (v : PmaVars) : Server where
  names := ["localhost".toList]
  locations :=
    [.under pmaPath { index := pmaIndex, content := .files }
      [pmaSubPhp v, pmaSubStatic]]
  fallback := { index := [indexHtml], content := .files }

def pmaChoose (v : PmaVars) (host : List Char) : Server :=
  chooseServer (pmaServer v) [pmaLocalhost v] host

end PhpMyAdmin

end LempStack.SiteTemplates

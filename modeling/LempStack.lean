import LempStack.PlayRun
import LempStack.EventTrace
import LempStack.FileMaps
import LempStack.ServiceConfig
import LempStack.PatternSearch
import LempStack.AccessRules
import LempStack.LocationSelect
import LempStack.HeaderList
import LempStack.SiteTemplates
import LempStack.DenyLocations
import LempStack.PhpMyAdminAccess
import LempStack.VarnishPolicy
import LempStack.VarnishMachine
import LempStack.VarnishAdmission
import LempStack.VarnishPurge
import LempStack.VarnishIsolation
import LempStack.VarnishReplies
import LempStack.PerconaRole
import LempStack.PerconaSecured
import LempStack.RoleServices
import LempStack.ConfigLoaded
import LempStack.SettledPlay
import LempStack.RoleReruns
import LempStack.MysqlRepair
import LempStack.BackupScripts
import LempStack.NginxRole
import LempStack.ModSecurityBlock
import LempStack.DefaultSiteAccess
import LempStack.SitePages
import LempStack.NginxSites
import LempStack.RoleModels
import LempStack.PhpMyAdminInstall
import LempStack.SwapSetup
import LempStack.NumericFields
import LempStack.QueueMonitor
import LempStack.ErrExit
import LempStack.RabbitmqSetup
import LempStack.SdsStrings
import LempStack.ValkeyNumbers
import LempStack.ValkeyOptions
import LempStack.OwnedLines
import LempStack.ValkeyRestore
import LempStack.ValkeyLoad
import LempStack.ValkeyRewrite
import LempStack.ValkeyConf
import LempStack.ValkeyReload

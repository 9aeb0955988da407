import CloudOs.Lib.Prog
import CloudOs.Lib.Runs
import CloudOs.Lib.Replay
import CloudOs.Lib.NamedTable
import CloudOs.Lib.Digraph
import CloudOs.Lib.Grouped
import CloudOs.Lib.KeyedMap
import CloudOs.Lib.Correspondence
import CloudOs.Lib.Monitors
import CloudOs.Lib.FileTree
import CloudOs.Lib.Texts
import CloudOs.Lib.Uri
import CloudOs.Lib.Cookies
import CloudOs.Model.Numbers
import CloudOs.Model.Getters
import CloudOs.Model.LdapContext
import CloudOs.Model.World
import CloudOs.Model.AppRepository
import CloudOs.Model.URIUtil
import CloudOs.Dao.LdapService
import CloudOs.Dao.Calls
import CloudOs.Dao.GroupMembers
import CloudOs.Dao.AccountGroupDAO
import CloudOs.Dao.AccountDAO
import CloudOs.Dao.Operations
import CloudOs.Groups.Acyclicity
import CloudOs.Groups.References
import CloudOs.Groups.AllOrNothing
import CloudOs.Groups.BuiltIn
import CloudOs.Groups.Expansion
import CloudOs.Groups.MirrorLists
import CloudOs.Groups.SameRequest
import CloudOs.Groups.Names
import CloudOs.Resources.AccountsResource
import CloudOs.Resources.TwoFactor
import CloudOs.Resources.AccountsWrites
import CloudOs.Resources.AccountsEnds
import CloudOs.Model.Answers
import CloudOs.Resources.EmailDomainsResource
import CloudOs.Resources.DnsRecordsResource
import CloudOs.Resources.SslCertificatesResource
import CloudOs.Resources.AccountGroupsResource
import CloudOs.Mail.DomainEvents
import CloudOs.Mail.Aliases
import CloudOs.Certificates.Installed
import CloudOs.Client.AdminModel
import CloudOs.Client.Following
import CloudOs.Client.GroupForm
import CloudOs.Client.DeviceCookies
import CloudOs.Groups.Untouched
import CloudOs.Dns.Subdomain
import CloudOs.Accounts.Isolation
import CloudOs.Accounts.Sessions
import CloudOs.Accounts.Administrators
import CloudOs.Accounts.OwnPassword
import CloudOs.Accounts.Suspension
import CloudOs.Accounts.AppPasswords
import CloudOs.Accounts.Tokens
import CloudOs.Accounts.ResetTokens
import CloudOs.Accounts.Registrations
import CloudOs.Dao.Search
import CloudOs.Search.StatusFilters
import CloudOs.Search.Literals
import CloudOs.Search.Scrubber
import CloudOs.Resources.SetupResource
import CloudOs.Setup.Once
import CloudOs.Dao.AppCaches
import CloudOs.Service.CloudOsTaskBase
import CloudOs.Service.AppDownloadTask
import CloudOs.Service.AppInstallTask
import CloudOs.Service.AppUninstallTask
import CloudOs.Service.InstalledAppLoader
import CloudOs.Dao.AppDAO
import CloudOs.Dao.AppRepositoryState
import CloudOs.Apps.Deadlock
import CloudOs.Apps.Downloads
import CloudOs.Apps.Activation
import CloudOs.Apps.RunningApp
import CloudOs.Apps.LifeCycle
import CloudOs.Apps.NullMaps
import CloudOs.Apps.FreshMaps
import CloudOs.Apps.Redirects
import CloudOs.Apps.RelativeRedirects
import CloudOs.Accounts.Undone
import CloudOs.Setup.Undone
import CloudOs.Lib.Settling
import CloudOs.Main.SyncAppRepositoryMain
import CloudOs.Apps.BuiltIns
import CloudOs.Dao.AvailableRuntimes
import CloudOs.Apps.Parents
import CloudOs.Client.AccountPage
import CloudOs.Accounts.OnlyShown
import CloudOs.Groups.MemberCalls
import CloudOs.Client.ConfigForm
import CloudOs.Client.Underscore
import CloudOs.Client.Launcher
import CloudOs.Resources.AppStoreResource
import CloudOs.Resources.AppAdapter
import CloudOs.Apps.FilteredPages
import CloudOs.Service.RestoreTask
import CloudOs.Setup.Restores
import CloudOs.Client.RestorePage
import CloudOs.Resources.ServiceKeysResource
import CloudOs.Client.AppStorePages
import CloudOs.Client.SignedInPages
import CloudOs.Certificates.Unlock
import CloudOs.Lib.Csv
import CloudOs.Search.SearchResource
import CloudOs.Client.PasswordPages
import CloudOs.Apps.Requests

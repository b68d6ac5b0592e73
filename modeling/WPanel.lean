import WPanel.Products.Slugs
import WPanel.Reports.Income
import WPanel.Renewals.Chains
import WPanel.Billing.Delivery
import WPanel.Site.CartInvoices
import WPanel.Site.Verification
import WPanel.Site.Cancelled
import WPanel.Site.Pending
import WPanel.Affiliates.Races
import WPanel.Domains.Phones
import WPanel.Fulfilment.Overlap
import WPanel.Billing.Issuing
import WPanel.Billing.Reminders
import WPanel.Billing.Gateways
import WPanel.Hosting.Dns
import WPanel.Hosting.CpanelDomains
import WPanel.Hosting.Scanners
import WPanel.Hosting.Deletion
import WPanel.Hosting.Quarantine
import WPanel.Hosting.Creation
import WPanel.Hosting.CronJobs
import WPanel.Accounts.Access
import WPanel.Accounts.Administrators
import WPanel.Clients.Contacts
import WPanel.Accounts.SecondFactor
import WPanel.Assistant.Cards
import WPanel.Assistant.LiveChat
import WPanel.Notifications.Delivery
import WPanel.Notifications.HtmlClean
import WPanel.Hosting.Control
import WPanel.Backups.Crypto
import WPanel.Backups.RoundTrip
import WPanel.Backups.Nightly
import WPanel.Hosting.PanelBackups
import WPanel.Hosting.Preview
import WPanel.Hosting.Helpers
import WPanel.Support.Tickets
import WPanel.Locks.Cancelling
import WPanel.Hosting.Trash
import WPanel.Hosting.Zipping
import WPanel.Lifecycle.ExpiryNotices
import WPanel.Lifecycle.Pass
import WPanel.Orders.Adoption
import WPanel.Orders.Reservations
import WPanel.Storefronts.Freshness
import WPanel.Storefronts.Sections
import WPanel.Storefronts.Webhooks
import WPanel.Hosting.Forwarders

import OrbitAuth.Directory.Refinement
import OrbitAuth.Safety.Acceptance
import OrbitAuth.Safety.Adoption
import OrbitAuth.Safety.CaseFolding
import OrbitAuth.Safety.ClaimMeaning
import OrbitAuth.Safety.Decisions
import OrbitAuth.Safety.Delivery
import OrbitAuth.Safety.DemoSeeding
import OrbitAuth.Safety.Enumeration
import OrbitAuth.Safety.Escalation
import OrbitAuth.Safety.Established
import OrbitAuth.Safety.EventIds
import OrbitAuth.Safety.EventLog
import OrbitAuth.Safety.FailedInvite
import OrbitAuth.Safety.FetchRate
import OrbitAuth.Safety.Guesses
import OrbitAuth.Safety.InviteExpiry
import OrbitAuth.Safety.InviteLifecycle
import OrbitAuth.Safety.LastRegistration
import OrbitAuth.Safety.OrgClaim
import OrbitAuth.Safety.Outsiders
import OrbitAuth.Safety.Policies
import OrbitAuth.Safety.Publication
import OrbitAuth.Safety.Purge
import OrbitAuth.Safety.ReadBack
import OrbitAuth.Safety.RoleUpdates
import OrbitAuth.Safety.Rotation
import OrbitAuth.Safety.Suspension
import OrbitAuth.Safety.Tenancy
import OrbitAuth.Safety.TokenTexts
import OrbitAuth.Safety.UserEvents
import OrbitAuth.Safety.Verification

import Mathlib

/-! The host-internal ops and the capabilities that guard them. -/

namespace VivimOmega.Contracts

namespace HostOps

def compartmentSpawn := "host.compartment.spawn@1"
def compartmentTerminate := "host.compartment.terminate@1"
def compartmentStats := "host.compartment.stats@1"
def journalAppend := "host.journal.append@1"
def tokensRevoke := "host.tokens.revoke@1"
def stateAcquire := "host.state.acquire@1"
def stateRelease := "host.state.release@1"
def graphSnapshot := "host.graph.snapshot@1"
def auditChain := "host.audit.chain@1"

def all : List String :=
  [compartmentSpawn, compartmentTerminate, compartmentStats, journalAppend, tokensRevoke,
    stateAcquire, stateRelease, graphSnapshot, auditChain]

end HostOps

namespace HostCaps

def compartmentAdmin := "host.compartment.admin"
def journal := "host.journal.append"
def tokensRevoke := "host.tokens.revoke"
def stateArbitration := "host.state.arbitration"
def kernelLens := "host.kernel.lens"

end HostCaps

def hostOpToCap : List (String × String) :=
  [(HostOps.compartmentSpawn, HostCaps.compartmentAdmin),
    (HostOps.compartmentTerminate, HostCaps.compartmentAdmin),
    (HostOps.compartmentStats, HostCaps.compartmentAdmin),
    (HostOps.journalAppend, HostCaps.journal),
    (HostOps.tokensRevoke, HostCaps.tokensRevoke),
    (HostOps.stateAcquire, HostCaps.stateArbitration),
    (HostOps.stateRelease, HostCaps.stateArbitration),
    (HostOps.graphSnapshot, HostCaps.kernelLens),
    (HostOps.auditChain, HostCaps.kernelLens)]

def hostCapOf? (op : String) : Option String := hostOpToCap.lookup op

end VivimOmega.Contracts

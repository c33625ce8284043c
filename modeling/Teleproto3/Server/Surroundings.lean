/-
# Surroundings within a larger world

A server whose connections share more than its surroundings know of: every function of the
surroundings acts on the part of the world that it was made for, and leaves the rest.
-/

import Teleproto3.Server.DirectDc

namespace Teleproto3
namespace Server

variable {W X : Type*} (part : W → X) (put : W → X → W)

/-- What a function of a part of the world gives, with the world after it. -/
def inPart {α : Type*} (w : W) (r : α × X) : α × W := (r.1, put w r.2)

/-- A server in a larger world. -/
def ExtServerEnv.lift (env : ExtServerEnv X) : ExtServerEnv W where
  ksState w := env.ksState (part w)
  sampleDelayNs w := inPart put w (env.sampleDelayNs (part w))
  preciseNow w := env.preciseNow (part w)
  clientSocket w ip ipv6 port := inPart put w (env.clientSocket (part w) ip ipv6 port)
  allocNewConnection w := inPart put w (env.allocNewConnection (part w))
  directDcKnown w dc := env.directDcKnown (part w) dc
  directTryDcAddrs w dc := inPart put w (env.directTryDcAddrs (part w) dc)
  dcReady w := env.dcReady (part w)
  accountBytes w s remote n := inPart put w (env.accountBytes (part w) s remote n)
  rateLimitAfterRelay w s remote n := inPart put w (env.rateLimitAfterRelay (part w) s remote n)
  prim := env.prim
  acceptKey := env.acceptKey
  secrets w := env.secrets (part w)
  extRandPadOnly := env.extRandPadOnly
  defaultDomainInfo := env.defaultDomainInfo
  directMode := env.directMode
  proxyProtocolParse := env.proxyProtocolParse
  ipAclCheck := env.ipAclCheck
  getSniDomainInfo := env.getSniDomainInfo
  haveClientRandom w random := env.haveClientRandom (part w) random
  addClientRandom w random := put w (env.addClientRandom (part w) random)
  sha256Hmac := env.sha256Hmac
  isAllowedTimestamp w timestamp := env.isAllowedTimestamp (part w) timestamp
  parseClientHelloCiphers := env.parseClientHelloCiphers
  serverHello w info random hello cipherSuiteId key :=
    inPart put w (env.serverHello (part w) info random hello cipherSuiteId key)
  admits w s remote := inPart put w (env.admits (part w) s remote)
  countConnection w s remote := put w (env.countConnection (part w) s remote)
  staleSlot := env.staleSlot
  scheduleExecute w msg flags := put w (env.scheduleExecute (part w) msg flags)

/-- A connection to a data centre in a larger world, whose client has these surroundings. -/
def DirectEnv.lift (env : DirectEnv X) (client : OutboundEnv W) : DirectEnv W :=
  { client with
    prim := env.prim
    socks5 := env.socks5
    addrIndex := fun w => env.addrIndex (part w)
    outboundDc := env.outboundDc
    randInit := fun w => inPart put w (env.randInit (part w))
    accountSent := fun w s remote n => inPart put w (env.accountSent (part w) s remote n) }

end Server
end Teleproto3

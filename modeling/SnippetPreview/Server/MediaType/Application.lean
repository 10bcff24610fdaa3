/-!
# Kinds of application data

* `MediaType.applicationTypes`: the registered media types `application/…`, each with the extensions of its files;
* `MediaType.privateTypes`: the types `application/x-…`, without this start.
-/

namespace SnippetPreview.MediaType

def applicationTypes : List (String × String) :=
  [("acad", "dwg"), ("andrew-inset", "ez"), ("annodex", "anx"), ("applixware", "aw"), ("atom+xml", "atom"),
    ("atomcat+xml", "atomcat"), ("atomsvc+xml", "atomsvc"), ("bdoc", "bdoc"), ("ccxml+xml", "ccxml"),
    ("cdmi-capability", "cdmia"), ("cdmi-container", "cdmic"), ("cdmi-domain", "cdmid"), ("cdmi-object", "cdmio"),
    ("cdmi-queue", "cdmiq"), ("cu-seeme", "cu"), ("dash+xml", "mpd"), ("davmount+xml", "davmount"), ("directx", "x"),
    ("docbook+xml", "dbk"), ("dssc+der", "dssc"), ("dssc+xml", "xdssc"), ("ecmascript", "ecma es"),
    ("emma+xml", "emma"), ("envoy", "evy"), ("epub+zip", "epub"), ("etl", "etl"), ("exi", "exi"), ("font-sfnt", "otf"),
    ("font-tdpfr", "pfr"), ("font-woff", "woff"), ("fractals", "fif"), ("fsharp-script", "fsscript fsx"),
    ("futuresplash", "spl"), ("geo+json", "geojson"), ("gml+xml", "gml"), ("gpx+xml", "gpx"), ("gxf", "gxf"),
    ("gzip", "gz"), ("hjson", "hjson"), ("hta", "hta"), ("hyperstudio", "stk"), ("inkml+xml", "ink inkml"),
    ("internet-property-stream", "acx"), ("ipfix", "ipfix"), ("java-archive", "ear jar war"),
    ("java-serialized-object", "ser"), ("javascript", "mjs"), ("json", "json"), ("json5", "json5"),
    ("jsonml+json", "jsonml"), ("ld+json", "jsonld"), ("liquidmotion", "jck jcz"), ("lost+xml", "lostxml"),
    ("mac-binhex40", "hqx"), ("mac-compactpro", "cpt"), ("mads+xml", "mads"), ("manifest+json", "webmanifest"),
    ("marc", "mrc"), ("marcxml+xml", "mrcx"), ("mathematica", "ma mb nb"), ("mathml+xml", "mathml"), ("mbox", "mbox"),
    ("mediaservercontrol+xml", "mscml"), ("metalink+xml", "metalink"), ("metalink4+xml", "meta4"), ("mets+xml", "mets"),
    ("mods+xml", "mods"), ("mp21", "m21 mp21"), ("mp4", "mp4s"), ("mpeg", "amc"), ("ms-vsi", "vsi"),
    ("msaccess", "accdb accde accdt ade adp mda mde"), ("msaccess.addin", "accda"), ("msaccess.cab", "accdc"),
    ("msaccess.ftemplate", "accft"), ("msaccess.runtime", "accdr"), ("msaccess.webapplication", "accdw"),
    ("msword", "doc dot wbk wiz"), ("mxf", "mxf"), ("n-quads", "nq"), ("n-triples", "nt"), ("oda", "oda"),
    ("oebps-package+xml", "opf"), ("ogg", "ogx"), ("olescript", "axs"), ("omdoc+xml", "omdoc"),
    ("onenote", "one onea onepkg onetmp onetoc onetoc2"), ("opensearchdescription+xml", "osdx"), ("oxps", "oxps"),
    ("patch-ops-error+xml", "xer"), ("pdf", "pdf"), ("pgp-encrypted", "pgp"), ("pgp-signature", "asc sig"),
    ("pics-rules", "prf"), ("pkcs10", "p10"), ("pkcs7-mime", "p7c p7m"), ("pkcs7-signature", "p7s"), ("pkcs8", "p8"),
    ("pkix-attr-cert", "ac"), ("pkix-crl", "crl"), ("pkix-pkipath", "pkipath"), ("pkixcmp", "pki"),
    ("postscript", "ai eps ps"), ("powershell", "psc1"), ("prs.cww", "cww"), ("pskc+xml", "pskcxml"),
    ("raml+yaml", "raml"), ("rat-file", "rat"), ("rdf+xml", "owl rdf"), ("reginfo+xml", "rif"),
    ("relax-ng-compact-syntax", "rnc"), ("resource-lists+xml", "rl"), ("resource-lists-diff+xml", "rld"),
    ("rpki-ghostbusters", "gbr"), ("rpki-manifest", "mft"), ("rpki-roa", "roa"), ("rsd+xml", "rsd"), ("rss+xml", "rss"),
    ("rtf", "rtf"), ("sbml+xml", "sbml"), ("scvp-cv-request", "scq"), ("scvp-cv-response", "scs"),
    ("scvp-vp-request", "spq"), ("scvp-vp-response", "spp"), ("sdp", "sdp"), ("set-payment-initiation", "setpay"),
    ("set-registration-initiation", "setreg"), ("shf+xml", "shf"), ("sieve", "sieve siv"), ("smil+xml", "smil"),
    ("sparql-query", "rq"), ("sparql-results+xml", "srx"), ("srgs", "gram"), ("srgs+xml", "grxml"), ("sru+xml", "sru"),
    ("ssdl+xml", "ssdl"), ("ssml+xml", "ssml"), ("streamingmedia", "ssm"), ("tei+xml", "tei teicorpus"),
    ("thraud+xml", "tfi"), ("timestamped-data", "tsd"), ("voicexml+xml", "vxml"), ("vsix", "vsix"), ("wasm", "wasm"),
    ("widget", "wgt"), ("windows-library+xml", "library-ms"), ("windows-search-connector+xml", "searchconnector-ms"),
    ("winhlp", "hlp"), ("wlmoviemaker", "wlmp"), ("wspolicy+xml", "wspolicy"), ("xaml+xml", "xaml"),
    ("xcap-diff+xml", "xdf"), ("xenc+xml", "xenc"), ("xhtml+xml", "xht xhtml"),
    ("xml", "asa asax ascx ashx asmx aspx config coverage datasource dgml filters generictest hxa hxc hxe hxf hxk hxv loadtest master mtx orderedtest psess rdlc resx rng ruleset settings sitemap skin snippet svc testrunconfig testsettings trx vcproj vcxproj vscontent vsmdi webtest wiq xmta xsc xss"),
    ("xop+xml", "xop"), ("xproc+xml", "xpl"), ("xspf+xml", "xspf"), ("xv+xml", "mxml xhvml xvm xvml"), ("yang", "yang"),
    ("yin+xml", "yin"), ("zip", "zip"), ("zstd", "zst")]

/-- The unregistered types of `application`, with their extensions. -/
def privateTypes : List (String × String) :=
  [("7z-compressed", "7z"), ("abiword", "abw"), ("ace-compressed", "ace"), ("arj", "arj"),
    ("authorware-bin", "aab vox x32"), ("authorware-map", "aam"), ("authorware-seg", "aas"), ("bcpio", "bcpio"),
    ("bittorrent", "torrent"), ("blorb", "blb blorb"), ("bridge-url", "adobebridge"), ("brotli", "br"), ("bzip", "bz"),
    ("bzip2", "boz bz2"), ("cbr", "cb7 cba cbr cbt cbz"), ("cdf", "cdf"), ("cdlink", "vcd"), ("cfs-compressed", "cfs"),
    ("chat", "chat"), ("chess-pgn", "pgn"), ("chrome-extension", "crx"), ("cocoa", "cco"), ("compress", "z"),
    ("compressed", "tgz"), ("cpio", "cpio"), ("csh", "csh"), ("debian-package", "udeb"), ("dgc-compressed", "dgc"),
    ("director", "cct cst cxt dcr dir dxr fgd swa w3d"), ("doom", "wad"), ("dtbncx+xml", "ncx"), ("dtbook+xml", "dtb"),
    ("dtbresource+xml", "res"), ("dvi", "dvi"), ("dxf", "dxf"), ("eva", "eva"), ("font-bdf", "bdf"),
    ("font-ghostscript", "gsf"), ("font-linux-psf", "psf"), ("font-pcf", "pcf"), ("font-snf", "snf"),
    ("font-type1", "pfa"), ("freearc", "arc"), ("gca-compressed", "gca"), ("glulx", "ulx"), ("gnumeric", "gnumeric"),
    ("gramps-xml", "gramps"), ("gtar", "gtar"), ("hdf", "hdf"), ("httpd-php", "php"),
    ("install-instructions", "install"), ("internet-signup", "ins isp"), ("iphone", "iii"), ("itunes-ipa", "ipa"),
    ("itunes-ipg", "ipg"), ("itunes-ipsw", "ipsw"), ("itunes-ite", "ite"), ("itunes-itlp", "itlp"),
    ("itunes-itms", "itms"), ("itunes-itpc", "itpc"), ("java-applet", "class"), ("java-archive-diff", "jardiff"),
    ("java-jnlp-file", "jnlp"), ("latex", "latex"), ("lua-bytecode", "luac"), ("lzh-compressed", "lha"),
    ("makeself", "run"), ("mie", "mie"), ("miva-compiled", "mvc"), ("mmxp", "mxp"), ("mobipocket-ebook", "mobi prc"),
    ("ms-application", "application"), ("ms-license", "slupkg-ms"), ("ms-manifest", "manifest"), ("ms-reader", "lit"),
    ("ms-shortcut", "lnk"), ("ms-vsto", "vsto"), ("ms-wmd", "wmd"), ("ms-wmz", "wmz"), ("ms-xbap", "xbap"),
    ("msaccess", "mdb"), ("msbinder", "obd"), ("mscardfile", "crd"), ("msclip", "clp"), ("msdownload", "bat com dll"),
    ("msmediaview", "m13 m14 mvb"), ("msmetafile", "wmf"), ("msmoney", "mny"), ("mspublisher", "pub"),
    ("msschedule", "scd"), ("msterminal", "trm"), ("mswrite", "wri"), ("netcdf", "nc"), ("ns-proxy-autoconfig", "pac"),
    ("nzb", "nzb"), ("oleobject", "hhc"), ("perfmon", "pma pmc pml pmr pmw"), ("perl", "pl pm"), ("pkcs12", "p12 pfx"),
    ("pkcs7-certificates", "p7b spc"), ("pkcs7-certreqresp", "p7r"), ("podcast", "pcast"), ("quicktimeplayer", "qtl"),
    ("rar-compressed", "rar"), ("research-info-systems", "ris"), ("safari-safariextz", "safariextz"),
    ("safari-webarchive", "webarchive"), ("sgimb", "sgimb"), ("sh", "sh"), ("shar", "shar"),
    ("shockwave-flash", "mfp swf"), ("silverlight-app", "xap"), ("smaf", "mmf"), ("sql", "sql"), ("stuffit", "sit"),
    ("stuffitx", "sitx"), ("subrip", "srt"), ("sv4cpio", "sv4cpio"), ("sv4crc", "sv4crc"), ("t3vm-image", "t3"),
    ("tads", "gam"), ("tar", "tar"), ("tcl", "tcl tk"), ("tex", "tex"), ("tex-tfm", "tfm"), ("texinfo", "texi texinfo"),
    ("tgif", "obj"), ("troff", "roff t tr"), ("troff-man", "man"), ("troff-me", "me"), ("troff-ms", "ms"),
    ("ustar", "ustar"), ("virtualbox-hdd", "hdd"), ("virtualbox-ova", "ova"), ("virtualbox-ovf", "ovf"),
    ("virtualbox-vbox", "vbox"), ("virtualbox-vbox-extpack", "vbox-extpack"), ("virtualbox-vdi", "vdi"),
    ("virtualbox-vhd", "vhd"), ("virtualbox-vmdk", "vmdk"), ("wais-source", "src"), ("web-app-manifest+json", "webapp"),
    ("wlpg-detect", "wlpginstall"), ("wlpg3-detect", "wlpginstall3"), ("x509-ca-cert", "cer crt der pem"),
    ("xfig", "fig"), ("xliff+xml", "xlf"), ("xpinstall", "xpi"), ("xz", "xz"), ("zmachine", "z1 z2 z3 z4 z5 z6 z7 z8")]

end SnippetPreview.MediaType
